import PercentFormat.Diagnostic
import PercentFormat.Text

/-! What a session remembers between calls: its policy, its diagnostic channel and its counts. The
environment has a word for the policy and one for the channel. -/

namespace PercentFormat

/-- What a formatting call does when it meets a malformed directive. -/
inductive Policy where
  | proceed
  | abort
  deriving DecidableEq, Repr

/-- Reads a policy. Blanks at the ends and the case of letters do not count, and an unknown word
means to go on. -/
def Policy.ofWord (word : String) : Policy :=
  if Text.normalized word ∈ ["abort", "strict", "fatal"] then .abort else .proceed

def Policy.name : Policy → String
  | .proceed => "continue"
  | .abort => "abort"

inductive Target where
  | stderr
  | stdout
  | off
  deriving DecidableEq, Repr

/-- Reads a target. Blanks at the ends and the case of letters do not count, and an unknown word
means the error stream. -/
def Target.ofWord (word : String) : Target :=
  if Text.normalized word ∈ ["stdout", "out"] then .stdout
  else if Text.normalized word ∈ ["off", "none", "disabled", "0"] then .off
  else .stderr

/-- The two variables of the environment, as the bytes that they hold. -/
structure Environment where
  mode : Option Bytes := none
  channel : Option Bytes := none
  deriving DecidableEq, Repr

/-- The policy of an environment. A variable that is not valid text counts as unset. -/
def Environment.policy (e : Environment) : Policy :=
  ((e.mode.bind Utf8.decode?).map Policy.ofWord).getD .proceed

/-- The target of an environment. A variable that is not valid text counts as unset. -/
def Environment.target (e : Environment) : Target :=
  ((e.channel.bind Utf8.decode?).map Target.ofWord).getD .stderr

/-- Where the diagnostic channel leads. -/
inductive Channel where
  | unresolved
  | target (target : Target)
  | sink (number : Nat)
  | brokenSink
  deriving DecidableEq, Repr

/-- The state of a session. Sinks that keep lines are numbered in the order in which they were installed. -/
structure Session where
  environment : Environment := {}
  policy : Option Policy := none
  channel : Channel := .unresolved
  counters : Counters := {}
  installed : Nat := 0
  captured : Array (Nat × Bytes) := #[]
  stdout : Array UInt8 := #[]
  stderr : Array UInt8 := #[]
  deriving DecidableEq, Repr

namespace Session

def start (environment : Environment) : Session := { environment }

/-- What a sink has kept. Each line stands with the number of its sink. -/
def kept (p : Session) (sink : Nat) : Bytes :=
  (p.captured.toList.filter (·.1 = sink)).flatMap (·.2)

/-- Leads the channel to a new sink, whatever it led to before. -/
def setSink (p : Session) (broken : Bool) : Session :=
  if broken then { p with channel := .brokenSink }
  else { p with channel := .sink p.installed, installed := p.installed + 1 }

/-- Leads a channel that is not resolved to the target of the environment. -/
def resolve (p : Session) : Session :=
  match p.channel with
  | .unresolved => { p with channel := .target p.environment.target }
  | _ => p

def deliver (p : Session) (line : Bytes) : Session :=
  match p.channel with
  | .target .stderr => { p with stderr := p.stderr ++ line.toArray }
  | .target .stdout => { p with stdout := p.stdout ++ line.toArray }
  | .sink number => { p with captured := p.captured.push (number, line) }
  | .target .off => p
  | .brokenSink => p
  | .unresolved => p

/-- Writes one marker line to the channel, which is resolved first. -/
def emit (p : Session) (marker : Marker) : Session := p.resolve.deliver marker.line

def record (p : Session) (category : Diagnostic.Class) : Session :=
  { p with counters := p.counters.record category }

def recordAbort (p : Session) : Session :=
  { p with counters := p.counters.recordAbort }

/-- The policy of the session. It is read from the environment when it is first asked for, and
remembered from then on. -/
def readPolicy (p : Session) : Policy × Session :=
  match p.policy with
  | some policy => (policy, p)
  | none => (p.environment.policy, { p with policy := some p.environment.policy })

end Session

end PercentFormat
