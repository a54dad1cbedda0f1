import PercentFormat.Bytes
import PercentFormat.FileTree
import PercentFormat.Json.Value

/-! The SHA-256 digest of byte strings, and indexes of the files that a run produced. -/

namespace PercentFormat.Digest

structure State where
  a : UInt32
  b : UInt32
  c : UInt32
  d : UInt32
  e : UInt32
  f : UInt32
  g : UInt32
  h : UInt32
  deriving DecidableEq, Repr

def initial : State :=
  ⟨0x6a09e667, 0xbb67ae85, 0x3c6ef372, 0xa54ff53a,
    0x510e527f, 0x9b05688c, 0x1f83d9ab, 0x5be0cd19⟩

def roundConstants : List UInt32 :=
  [0x428a2f98, 0x71374491, 0xb5c0fbcf, 0xe9b5dba5, 0x3956c25b, 0x59f111f1, 0x923f82a4,
    0xab1c5ed5, 0xd807aa98, 0x12835b01, 0x243185be, 0x550c7dc3, 0x72be5d74, 0x80deb1fe,
    0x9bdc06a7, 0xc19bf174, 0xe49b69c1, 0xefbe4786, 0x0fc19dc6, 0x240ca1cc, 0x2de92c6f,
    0x4a7484aa, 0x5cb0a9dc, 0x76f988da, 0x983e5152, 0xa831c66d, 0xb00327c8, 0xbf597fc7,
    0xc6e00bf3, 0xd5a79147, 0x06ca6351, 0x14292967, 0x27b70a85, 0x2e1b2138, 0x4d2c6dfc,
    0x53380d13, 0x650a7354, 0x766a0abb, 0x81c2c92e, 0x92722c85, 0xa2bfe8a1, 0xa81a664b,
    0xc24b8b70, 0xc76c51a3, 0xd192e819, 0xd6990624, 0xf40e3585, 0x106aa070, 0x19a4c116,
    0x1e376c08, 0x2748774c, 0x34b0bcb5, 0x391c0cb3, 0x4ed8aa4a, 0x5b9cca4f, 0x682e6ff3,
    0x748f82ee, 0x78a5636f, 0x84c87814, 0x8cc70208, 0x90befffa, 0xa4506ceb, 0xbef9a3f7,
    0xc67178f2]

def rotate (x n : UInt32) : UInt32 := (x >>> n) ||| (x <<< (32 - n))

def word (a b c d : UInt8) : UInt32 :=
  a.toUInt32 <<< 24 ||| b.toUInt32 <<< 16 ||| c.toUInt32 <<< 8 ||| d.toUInt32

def wordsOf : Bytes → List UInt32
  | a :: b :: c :: d :: rest => word a b c d :: wordsOf rest
  | _ => []

/-- Appends `count` words to a schedule, which stands in reverse. -/
def extend (count : Nat) (schedule : List UInt32) : List UInt32 :=
  match count with
  | 0 => schedule
  | n + 1 =>
    let w2 := schedule.getD 1 0
    let w7 := schedule.getD 6 0
    let w15 := schedule.getD 14 0
    let w16 := schedule.getD 15 0
    let s0 := rotate w15 7 ^^^ rotate w15 18 ^^^ (w15 >>> 3)
    let s1 := rotate w2 17 ^^^ rotate w2 19 ^^^ (w2 >>> 10)
    extend n ((w16 + s0 + w7 + s1) :: schedule)

def schedule (block : Bytes) : List UInt32 := (extend 48 (wordsOf block).reverse).reverse

def round (s : State) (k w : UInt32) : State :=
  let s1 := rotate s.e 6 ^^^ rotate s.e 11 ^^^ rotate s.e 25
  let choice := (s.e &&& s.f) ^^^ (~~~s.e &&& s.g)
  let t1 := s.h + s1 + choice + k + w
  let s0 := rotate s.a 2 ^^^ rotate s.a 13 ^^^ rotate s.a 22
  let majority := (s.a &&& s.b) ^^^ (s.a &&& s.c) ^^^ (s.b &&& s.c)
  ⟨t1 + (s0 + majority), s.a, s.b, s.c, s.d + t1, s.e, s.f, s.g⟩

def compress (s : State) (block : Bytes) : State :=
  let t := (roundConstants.zip (schedule block)).foldl (fun t (k, w) => round t k w) s
  ⟨s.a + t.a, s.b + t.b, s.c + t.c, s.d + t.d, s.e + t.e, s.f + t.f, s.g + t.g, s.h + t.h⟩

/-- The bytes of a number, `count` of them, the most significant first. -/
def bigEndian (count n : Nat) : Bytes :=
  (List.range count).reverse.map fun i => UInt8.ofNat (n >>> (8 * i))

/-- The message up to a full block: a marking bit, zeros, and its length in bits. -/
def pad (message : Bytes) : Bytes :=
  let zeros := (64 - (message.length + 9) % 64) % 64
  message ++ 0x80 :: List.replicate zeros 0 ++ bigEndian 8 (message.length * 8)

def compressAll (count : Nat) (s : State) (blocks : Bytes) : State :=
  match count with
  | 0 => s
  | n + 1 => compressAll n (compress s (blocks.take 64)) (blocks.drop 64)

def sha256 (message : Bytes) : Bytes :=
  let padded := pad message
  let s := compressAll (padded.length / 64) initial padded
  [s.a, s.b, s.c, s.d, s.e, s.f, s.g, s.h].flatMap fun w => bigEndian 4 w.toNat

def hex (message : Bytes) : String :=
  String.ofList ((sha256 message).flatMap fun b =>
    [Nat.digitChar (b.toNat / 16), Nat.digitChar (b.toNat % 16)])

end PercentFormat.Digest

namespace PercentFormat.Log

open Json

structure Artifact where
  path : String
  kind : String
  digest : String
  size : Nat
  deriving DecidableEq, Repr

def Artifact.ofBytes (path kind : String) (content : Bytes) : Artifact :=
  ⟨path, kind, Digest.hex content, content.length⟩

structure ArtifactIndex where
  runId : String
  generated : String
  artifacts : List Artifact
  deriving DecidableEq, Repr

def Artifact.toJson (a : Artifact) : Value :=
  .object [("path", .string a.path), ("kind", .string a.kind), ("sha256", .string a.digest),
    ("size_bytes", .ofNat a.size)]

def ArtifactIndex.toJson (i : ArtifactIndex) : Value :=
  .object [("index_version", .ofNat 1), ("run_id", .string i.runId),
    ("generated_utc", .string i.generated), ("artifacts", .array (i.artifacts.map Artifact.toJson))]

def ArtifactIndex.text (i : ArtifactIndex) : String := i.toJson.pretty

def ArtifactIndex.add (i : ArtifactIndex) (path kind : String) (content : Bytes) : ArtifactIndex :=
  { i with artifacts := i.artifacts ++ [.ofBytes path kind content] }

def ArtifactIndex.addFile (i : ArtifactIndex) (t : FileTree) (path kind : String) :
    Except IoFault ArtifactIndex :=
  (t.read path).map (i.add path kind)

end PercentFormat.Log
