/-
The skill runner: one request to a skill process over its standard input and output.

A `SkillProcess` is everything a process can do to its runner: how fast it reads, which
bytes it writes and when, when it closes its pipes, and when it exits if it ever does.
`invoke` is the runner on such a process; it keeps the waits that did not end at once,
each with the deadline it was under.
-/
import SecureAgnt.Lib.Json

namespace SecureAgnt
namespace Skill

/-! ## The protocol -/

structure CapabilityGrant where
  capability : String
  scope : String

structure InvokeContext where
  tenantId : String
  runId : String
  stepId : String
  timeBudgetMs : Nat
  traceId : Option String
  grantedCapabilities : List CapabilityGrant

structure ActionRequest where
  actionId : String
  actionType : String
  args : Json
  justification : String
  actionContractVersion : Option String
  actionSchemaId : Option String

structure InvokeRequest where
  id : String
  context : InvokeContext
  input : Json

structure InvokeResult where
  id : String
  output : Json
  actionRequests : List ActionRequest

structure SkillDescription where
  name : String
  version : String
  description : String
  inputsSchema : Json
  outputsSchema : Json
  requestedCapabilities : List CapabilityGrant
  actionTypes : List String

structure ProtocolError where
  code : String
  message : String
  details : Json

inductive SkillMessage where
  | describe (id : String)
  | describeResult (id : String) (skill : SkillDescription)
  | invoke (id : String) (context : InvokeContext) (input : Json)
  | invokeResult (id : String) (output : Json) (actionRequests : List ActionRequest)
  | error (id : String) (error : ProtocolError)

def InvokeRequest.intoMessage (request : InvokeRequest) : SkillMessage :=
  .invoke request.id request.context request.input

def messageTypeName : SkillMessage → String
  | .describe .. => "describe"
  | .describeResult .. => "describe_result"
  | .invoke .. => "invoke"
  | .invokeResult .. => "invoke_result"
  | .error .. => "error"

/-- `serde_json::to_vec` and `serde_json::from_slice` at the messages. -/
structure SkillCodec where
  toVec : SkillMessage → Except String (List UInt8)
  fromSlice : List UInt8 → Except String SkillMessage

def newline : UInt8 := 10

def SkillCodec.encodeNdjson (codec : SkillCodec) (message : SkillMessage) :
    Except String (List UInt8) := do
  let bytes ← codec.toVec message
  return bytes ++ [newline]

/-! ## The process -/

inductive StdoutEvent where
  | byte (b : UInt8)
  | close
  | error (message : String)
  deriving DecidableEq

/-- What becomes of a kill signal: the operating system refuses to send it, or the process
ends by it, if it ever does. -/
inductive Signal where
  | refused (message : String)
  | sent (ends : Option Nat)

/-- What a process does, in time from its start.  `reads n` is when it has read `n` bytes
of its input and `stdout i` is what its output does after `i` bytes, if it ever does.  An
exit has a code unless it is by a signal.  `waitFailure` is an operating system that
refuses to wait for it, and `signal t` is what a kill at `t` comes to. -/
structure SkillProcess where
  reads : Nat → Option Nat
  closesStdin : Option Nat
  stdout : Nat → Option (Nat × StdoutEvent)
  exit : Option (Nat × Option Int)
  waitFailure : Option String := none
  signal : Nat → Signal := fun t => .sent (some t)

/-- When a write of `n` bytes ends, and its error.  A pipe holds `capacity` bytes that
nobody has read. -/
def SkillProcess.writeEnd (p : SkillProcess) (capacity n : Nat) : Option (Nat × Option String) :=
  let taken := if n ≤ capacity then some 0 else p.reads (n - capacity)
  match p.closesStdin, taken with
  | some c, some t => if c ≤ t then some (c, some "Broken pipe (os error 32)") else some (t, none)
  | some c, none => some (c, some "Broken pipe (os error 32)")
  | none, some t => some (t, none)
  | none, none => none

structure RunnerConfig where
  command : String
  args : List String := []
  timeout : Nat := 5 * 10 ^ 9
  maxOutputBytes : Nat := 64 * 1024
  envAllowlist : List String := []

structure SkillCommand where
  command : String
  args : List String
  env : List (String × String)

/-- The machine the runner is on. -/
structure SkillHost where
  envVar : String → Option String
  pipeCapacity : Nat
  spawn : SkillCommand → Except String SkillProcess

/-- `Command::env`. -/
def setEnv (key value : String) (env : List (String × String)) : List (String × String) :=
  env.filter (fun entry => entry.1 ≠ key) ++ [(key, value)]

def allowEnv (host : SkillHost) (env : List (String × String)) (key : String) :
    List (String × String) :=
  match host.envVar key with
  | some value => setEnv key value env
  | none => env

def skillCommand (host : SkillHost) (config : RunnerConfig) : SkillCommand where
  command := config.command
  args := config.args
  env := config.envAllowlist.foldl (allowEnv host) [("SECUREAGNT_SKILL_SANDBOXED", "1")]

/-! ## Waits -/

inductive Channel where
  | stdin
  | stdout
  | exit
  deriving DecidableEq

/-- A wait on the process that did not end at once, with its deadline if one was armed. -/
structure Wait where
  on : Channel
  deadline : Option Nat
  deriving DecidableEq

/-- The time, and the waits so far. -/
structure Moment where
  now : Nat
  waits : List Wait

inductive Awaited where
  | ready (m : Moment)
  | elapsed (m : Moment)
  | never (m : Moment)

/-- Wait for what is ready at a time or never.  What is ready at its deadline is in time. -/
def Moment.await (m : Moment) (on : Channel) (deadline ready : Option Nat) : Awaited :=
  let waits := m.waits ++ [⟨on, deadline⟩]
  match ready, deadline with
  | some t, some d =>
    if t ≤ m.now then .ready m else if t ≤ d then .ready ⟨t, waits⟩ else .elapsed ⟨d, waits⟩
  | some t, none => if t ≤ m.now then .ready m else .ready ⟨t, waits⟩
  | none, some d => .elapsed ⟨d, waits⟩
  | none, none => .never ⟨m.now, waits⟩

/-! ## The runner -/

inductive SkillRunnerError where
  | spawnFailed (message : String)
  | missingStdin
  | missingStdout
  | io (message : String)
  | timeout
  | outputTooLarge (maxBytes : Nat)
  | protocolEncode (message : String)
  | protocolDecode (message : String)
  | mismatchedResponseId (expected actual : String)
  | skillReturnedError (id code message : String)
  | unexpectedResponse (messageType : String)
  | skillExitedNonZero (code : Option Int)
  | noOutput
  deriving DecidableEq

structure SkillRunnerResult where
  invokeResult : InvokeResult

/-- `killed` is a process that the kill signal was sent to. -/
structure Returned where
  time : Nat
  killed : Bool
  result : Except SkillRunnerError SkillRunnerResult

/-- The waits of a call, and how it returned if it did. -/
structure Invocation where
  waits : List Wait
  returned : Option Returned

/-- Return and leave the process as it is. -/
def Moment.leave (m : Moment) (result : Except SkillRunnerError SkillRunnerResult) : Invocation :=
  ⟨m.waits, some ⟨m.now, false, result⟩⟩

/-- Return from a process that was sent the signal. -/
def Moment.leaveKilled (m : Moment) (error : SkillRunnerError) : Invocation :=
  ⟨m.waits, some ⟨m.now, true, .error error⟩⟩

def Moment.hang (m : Moment) : Invocation := ⟨m.waits, none⟩

def SkillProcess.exitTime (p : SkillProcess) : Option Nat := p.exit.map (·.1)

def SkillProcess.exitCode (p : SkillProcess) : Option Int := p.exit.bind (·.2)

/-- When a process that was sent the signal at `t` is there to be waited for. -/
def SkillProcess.endAfter (p : SkillProcess) (t : Nat) (ends : Option Nat) : Option Nat :=
  match p.exitTime with
  | some exited => if exited ≤ t then some exited else ends
  | none => ends

/-- `kill_if_alive`, then return.  `Child::kill` sends the signal and then waits for the
exit, outside every deadline; its errors are only logged. -/
def Moment.kill (p : SkillProcess) (m : Moment) (error : SkillRunnerError) : Invocation :=
  match p.signal m.now, p.waitFailure with
  | .refused _, _ => m.leave (.error error)
  | .sent _, some _ => m.leaveKilled error
  | .sent ends, none =>
    match m.await .exit none (p.endAfter m.now ends) with
    | .ready m => m.leaveKilled error
    | .elapsed m => m.hang
    | .never m => m.hang

inductive LineEnd where
  | line (bytes : List UInt8)
  | noOutput
  | failed (error : SkillRunnerError)
  | elapsed

/-- One read of the output after `i` bytes; `none` is a deadline that passed first. -/
def readStdout (p : SkillProcess) (deadline : Nat) (m : Moment) (i : Nat) :
    Moment × Option StdoutEvent :=
  match m.await .stdout (some deadline) ((p.stdout i).map (·.1)) with
  | .ready m => (m, (p.stdout i).map (·.2))
  | .elapsed m => (m, none)
  | .never m => (m, none)

/-- `read_line_capped` under its deadline; `room` is what is left of `max_output_bytes`. -/
def readLineCapped (p : SkillProcess) (deadline maxOutputBytes : Nat) :
    (room : Nat) → Moment → List UInt8 → Moment × LineEnd
  | room, m, bytes =>
    match readStdout p deadline m bytes.length with
    | (m, none) => (m, .elapsed)
    | (m, some (.error message)) => (m, .failed (.io message))
    | (m, some .close) => (m, if bytes.isEmpty then .noOutput else .line bytes)
    | (m, some (.byte b)) =>
      match room with
      | 0 => (m, .failed (.outputTooLarge maxOutputBytes))
      | room + 1 =>
        if b = newline then (m, .line (bytes ++ [b]))
        else readLineCapped p deadline maxOutputBytes room m (bytes ++ [b])

/-- `child.wait()`; `success()` is an exit with code 0. -/
def awaitExit (p : SkillProcess) (m : Moment) (deadline : Option Nat)
    (exited : Moment → Invocation) : Invocation :=
  match p.waitFailure with
  | some message => m.leave (.error (.io message))
  | none =>
    match m.await .exit deadline p.exitTime with
    | .ready m =>
      if p.exitCode = some 0 then exited m
      else m.leave (.error (.skillExitedNonZero p.exitCode))
    | .elapsed m => m.kill p .timeout
    | .never m => m.hang

def respond (codec : SkillCodec) (config : RunnerConfig) (request : InvokeRequest)
    (p : SkillProcess) (m : Moment) (bytes : List UInt8) : Invocation :=
  match codec.fromSlice bytes with
  | .error message => m.leave (.error (.protocolDecode message))
  | .ok (.invokeResult id output actionRequests) =>
    if id ≠ request.id then m.kill p (.mismatchedResponseId request.id id)
    else awaitExit p m (some (m.now + config.timeout)) fun m =>
      m.leave (.ok ⟨⟨id, output, actionRequests⟩⟩)
  | .ok (.error id error) => m.kill p (.skillReturnedError id error.code error.message)
  | .ok (.describe id) => m.kill p (.unexpectedResponse (messageTypeName (.describe id)))
  | .ok (.describeResult id skill) =>
    m.kill p (.unexpectedResponse (messageTypeName (.describeResult id skill)))
  | .ok (.invoke id context input) =>
    m.kill p (.unexpectedResponse (messageTypeName (.invoke id context input)))

def afterRead (codec : SkillCodec) (config : RunnerConfig) (request : InvokeRequest)
    (p : SkillProcess) : Moment × LineEnd → Invocation
  | (m, .line bytes) => respond codec config request p m bytes
  | (m, .noOutput) => awaitExit p m none fun m => m.leave (.error .noOutput)
  | (m, .failed error) => m.kill p error
  | (m, .elapsed) => m.kill p .timeout

def receive (codec : SkillCodec) (config : RunnerConfig) (request : InvokeRequest)
    (p : SkillProcess) (m : Moment) : Invocation :=
  afterRead codec config request p (readLineCapped p (m.now + config.timeout)
    config.maxOutputBytes config.maxOutputBytes m [])

/-- The runner on a process that has started, both of whose pipes it has.  The shutdown of
a pipe does not wait. -/
def invokeChild (codec : SkillCodec) (capacity : Nat) (config : RunnerConfig)
    (request : InvokeRequest) (p : SkillProcess) : Invocation :=
  let m : Moment := ⟨0, []⟩
  match codec.encodeNdjson request.intoMessage with
  | .error message => m.leave (.error (.protocolEncode message))
  | .ok encoded =>
    let write := p.writeEnd capacity encoded.length
    match m.await .stdin none (write.map (·.1)), write with
    | .ready m, some (_, some message) => m.leave (.error (.io message))
    | .ready m, _ => receive codec config request p m
    | .elapsed m, _ => m.hang
    | .never m, _ => m.hang

/-- `SkillRunner::invoke`. -/
def invoke (codec : SkillCodec) (host : SkillHost) (config : RunnerConfig)
    (request : InvokeRequest) : Invocation :=
  match host.spawn (skillCommand host config) with
  | .error message => ⟨[], some ⟨0, false, .error (.spawnFailed message)⟩⟩
  | .ok p => invokeChild codec host.pipeCapacity config request p

end Skill
end SecureAgnt
