/-
When a skill process is contained.

`contained_iff` compares the runner with what it is for: every wait under a deadline, no
process left behind, and no answer but the first line of a process that succeeded.  It is
so exactly for the processes of `Behaves`.
-/
import SecureAgnt.Skill.Runner

namespace SecureAgnt
namespace Skill

/-! ## What the process does -/

namespace SkillProcess

def ExitedBy (p : SkillProcess) (t : Nat) : Prop :=
  ∃ time code, p.exit = some (time, code) ∧ time ≤ t

/-- It has exited by `t`, or a kill at `t` is sent and ends it there and then.  Nobody waits
for a process that the operating system refuses to wait for. -/
def DiesAt (p : SkillProcess) (t : Nat) : Prop :=
  p.ExitedBy t ∨ ∃ ends, p.signal t = .sent ends ∧
    (p.waitFailure = none → ∃ time, ends = some time ∧ time ≤ t)

/-- A wait from `t` on comes to an end by `deadline`, or a kill at `deadline` ends it. -/
def WaitEnds (p : SkillProcess) (t deadline : Nat) : Prop :=
  (p.waitFailure = none → p.DiesAt deadline) ∧ (p.waitFailure ≠ none → p.ExitedBy t)

/-- After `bytes` by `now`, the line that the process writes is `line`, and it is complete
at `t`. -/
inductive LineFrom (p : SkillProcess) : List UInt8 → Nat → List UInt8 → Nat → Prop
  | newline {bytes : List UInt8} {now t : Nat}
      (hevent : p.stdout bytes.length = some (t, .byte newline)) :
      LineFrom p bytes now (bytes ++ [newline]) (max now t)
  | closed {bytes : List UInt8} {now t : Nat} (hsome : bytes ≠ [])
      (hevent : p.stdout bytes.length = some (t, .close)) : LineFrom p bytes now bytes (max now t)
  | more {bytes line : List UInt8} {b : UInt8} {now t t' : Nat} (hb : b ≠ Skill.newline)
      (hevent : p.stdout bytes.length = some (t, .byte b))
      (hrest : LineFrom p (bytes ++ [b]) (max now t) line t') : LineFrom p bytes now line t'

/-- The first line of the process, complete at `t`. -/
def FirstLine (p : SkillProcess) (line : List UInt8) (t : Nat) : Prop := p.LineFrom [] 0 line t

/-- After `bytes` by `now`, what the output comes to, and when, for somebody who takes
`maxBytes` bytes and leaves at `deadline`. -/
inductive OutputEnds (p : SkillProcess) (deadline maxBytes : Nat) :
    List UInt8 → Nat → LineEnd → Nat → Prop
  | newline {bytes : List UInt8} {now t : Nat} (hroom : bytes.length < maxBytes)
      (ht : t ≤ deadline) (hevent : p.stdout bytes.length = some (t, .byte newline)) :
      OutputEnds p deadline maxBytes bytes now (.line (bytes ++ [newline])) (max now t)
  | closed {bytes : List UInt8} {now t : Nat} (hsome : bytes ≠ []) (ht : t ≤ deadline)
      (hevent : p.stdout bytes.length = some (t, .close)) :
      OutputEnds p deadline maxBytes bytes now (.line bytes) (max now t)
  | silent {now t : Nat} (ht : t ≤ deadline) (hevent : p.stdout 0 = some (t, .close)) :
      OutputEnds p deadline maxBytes [] now .noOutput (max now t)
  | broken {bytes : List UInt8} {now t : Nat} {message : String} (ht : t ≤ deadline)
      (hevent : p.stdout bytes.length = some (t, .error message)) :
      OutputEnds p deadline maxBytes bytes now (.failed (.io message)) (max now t)
  | full {bytes : List UInt8} {b : UInt8} {now t : Nat} (hfull : bytes.length = maxBytes)
      (ht : t ≤ deadline) (hevent : p.stdout bytes.length = some (t, .byte b)) :
      OutputEnds p deadline maxBytes bytes now (.failed (.outputTooLarge maxBytes)) (max now t)
  | late {bytes : List UInt8} {now : Nat}
      (hlate : ∀ t event, p.stdout bytes.length = some (t, event) → deadline < t) :
      OutputEnds p deadline maxBytes bytes now .elapsed deadline
  | more {bytes : List UInt8} {b : UInt8} {now t t' : Nat} {ending : LineEnd}
      (hb : b ≠ Skill.newline) (hroom : bytes.length < maxBytes) (ht : t ≤ deadline)
      (hevent : p.stdout bytes.length = some (t, .byte b))
      (hrest : OutputEnds p deadline maxBytes (bytes ++ [b]) (max now t) ending t') :
      OutputEnds p deadline maxBytes bytes now ending t'

end SkillProcess

/-- What the process has written, or has not, when the runner is done with its output. -/
def OutputComesTo (config : RunnerConfig) (p : SkillProcess) (ending : LineEnd) (t : Nat) : Prop :=
  p.OutputEnds config.timeout config.maxOutputBytes [] 0 ending t

/-! ## Containment -/

structure Contained (codec : SkillCodec) (config : RunnerConfig) (request : InvokeRequest)
    (p : SkillProcess) (call : Invocation) : Prop where
  deadlines : ∀ wait ∈ call.waits, wait.deadline ≠ none
  reaped : ∀ returned, call.returned = some returned →
    returned.killed = true ∨ p.ExitedBy returned.time
  answered : ∀ returned result, call.returned = some returned → returned.result = .ok result →
    ∃ line t, p.FirstLine line t ∧ line.length ≤ config.maxOutputBytes ∧
      codec.fromSlice line = .ok (.invokeResult request.id result.invokeResult.output
        result.invokeResult.actionRequests) ∧
      result.invokeResult.id = request.id ∧ p.exitCode = some 0

/-- The message is the result of the request `id`. -/
def SkillMessage.IsResult (id : String) : SkillMessage → Prop
  | .invokeResult id' _ _ => id' = id
  | _ => False

/-- What the runner takes for granted of a process whose output has come to `ending` at `t`:
it does not close its output in silence and what it answers is a message, unless it has
exited, and a signal that it is sent ends it. -/
structure Answers (codec : SkillCodec) (config : RunnerConfig) (request : InvokeRequest)
    (p : SkillProcess) (ending : LineEnd) (t : Nat) : Prop where
  silent : ending = .noOutput → p.ExitedBy t
  broken : ∀ error, ending = .failed error → p.DiesAt t
  stalled : ending = .elapsed → p.DiesAt t
  garbled : ∀ line message, ending = .line line → codec.fromSlice line = .error message →
    p.ExitedBy t
  refused : ∀ line message, ending = .line line → codec.fromSlice line = .ok message →
    ¬ message.IsResult request.id → p.DiesAt t
  waited : ∀ line message, ending = .line line → codec.fromSlice line = .ok message →
    message.IsResult request.id → p.WaitEnds t (t + config.timeout)

/-- The pipe takes the request at once. -/
def TakesAtOnce (capacity : Nat) (p : SkillProcess) (n : Nat) : Prop :=
  p.closesStdin ≠ some 0 ∧ (n ≤ capacity ∨ p.reads (n - capacity) = some 0)

def Behaves (codec : SkillCodec) (capacity : Nat) (config : RunnerConfig)
    (request : InvokeRequest) (p : SkillProcess) : Prop :=
  p.ExitedBy 0 ∧ (p.closesStdin = some 0 ∨ ∃ message,
      codec.encodeNdjson request.intoMessage = .error message) ∨
    ∃ encoded, codec.encodeNdjson request.intoMessage = .ok encoded ∧
      TakesAtOnce capacity p encoded.length ∧
      ∀ ending t, OutputComesTo config p ending t → Answers codec config request p ending t

/-! ## Waiting -/

section Await

variable {m : Moment} {c : Channel} {d t : Nat}

def Moment.Armed (m : Moment) : Prop := ∀ wait ∈ m.waits, wait.deadline ≠ none

theorem armed_concat (h : m.Armed) : Moment.Armed ⟨t, m.waits ++ [⟨c, some d⟩]⟩ := by
  intro wait hwait
  rcases List.mem_append.mp hwait with hwait | hwait
  · exact h wait hwait
  · rw [List.mem_singleton.mp hwait]
    exact Option.some_ne_none d

theorem not_armed_concat (t : Nat) : ¬ Moment.Armed ⟨t, m.waits ++ [⟨c, none⟩]⟩ := by
  intro h
  exact h ⟨c, none⟩ (List.mem_append_right _ (List.mem_singleton.mpr rfl)) rfl

theorem await_in_time (harmed : m.Armed) (h : t ≤ d) :
    ∃ m', m.await c (some d) (some t) = .ready m' ∧ m'.now = max m.now t ∧ m'.Armed := by
  by_cases hready : t ≤ m.now
  · exact ⟨m, if_pos hready, by omega, harmed⟩
  · refine ⟨⟨t, m.waits ++ [⟨c, some d⟩]⟩, ?_, ?_, armed_concat harmed⟩
    · show (if _ then _ else if _ then _ else _ : Awaited) = _
      rw [if_neg hready, if_pos h]
    · show t = max m.now t
      omega

theorem await_late {ready : Option Nat} (harmed : m.Armed) (hnow : m.now ≤ d)
    (h : ∀ t, ready = some t → d < t) :
    ∃ m', m.await c (some d) ready = .elapsed m' ∧ m'.now = d ∧ m'.Armed := by
  refine ⟨⟨d, m.waits ++ [⟨c, some d⟩]⟩, ?_, rfl, armed_concat harmed⟩
  cases ready with
  | none => rfl
  | some t =>
    have hlate := h t rfl
    show (if _ then _ else if _ then _ else _ : Awaited) = _
    rw [if_neg (by omega), if_neg (by omega)]

/-- A wait that no deadline ends is no wait, or it is on the record. -/
theorem await_open (c : Channel) (ready : Option Nat) :
    (∃ t, ready = some t ∧ t ≤ m.now) ∧ m.await c none ready = .ready m ∨
      (¬ ∃ t, ready = some t ∧ t ≤ m.now) ∧ ∃ m' : Moment, ¬ m'.Armed ∧
        (m.await c none ready = .ready m' ∨ m.await c none ready = .never m') := by
  cases ready with
  | none => exact .inr ⟨nofun, _, not_armed_concat m.now, .inr rfl⟩
  | some t =>
    by_cases hready : t ≤ m.now
    · exact .inl ⟨⟨t, rfl, hready⟩, if_pos hready⟩
    · refine .inr ⟨?_, _, not_armed_concat t, .inl (if_neg hready)⟩
      rintro ⟨t', ⟨⟩, hle⟩
      exact hready hle

end Await

/-! ## Returning -/

section Return

variable {codec : SkillCodec} {config : RunnerConfig} {request : InvokeRequest}
  {p : SkillProcess} {m : Moment}

theorem exitedBy_iff {t : Nat} : p.ExitedBy t ↔ ∃ time, p.exitTime = some time ∧ time ≤ t := by
  unfold SkillProcess.ExitedBy SkillProcess.exitTime
  constructor
  · rintro ⟨time, code, hexit, hle⟩
    exact ⟨time, by rw [hexit, Option.map_some], hle⟩
  · rintro ⟨time, htime, hle⟩
    obtain ⟨⟨_, code⟩, hexit, rfl⟩ := Option.map_eq_some_iff.mp htime
    exact ⟨_, code, hexit, hle⟩

theorem endAfter_iff {t : Nat} {ends : Option Nat} :
    (∃ time, p.endAfter t ends = some time ∧ time ≤ t) ↔
      p.ExitedBy t ∨ ∃ time, ends = some time ∧ time ≤ t := by
  rw [exitedBy_iff]
  unfold SkillProcess.endAfter
  cases hexit : p.exitTime with
  | none => simp
  | some exited =>
    by_cases hle : exited ≤ t
    · simp [hle]
    · simp [hle]

theorem contained_leave_error {error : SkillRunnerError} :
    Contained codec config request p (m.leave (.error error)) ↔ m.Armed ∧ p.ExitedBy m.now := by
  constructor
  · intro h
    refine ⟨h.deadlines, ?_⟩
    rcases h.reaped _ rfl with hkilled | hexited
    · cases hkilled
    · exact hexited
  · rintro ⟨harmed, hexited⟩
    refine ⟨harmed, ?_, ?_⟩
    · rintro returned ⟨⟩
      exact .inr hexited
    · rintro returned result ⟨⟩ hok
      cases hok

theorem contained_leaveKilled {error : SkillRunnerError} :
    Contained codec config request p (m.leaveKilled error) ↔ m.Armed := by
  constructor
  · exact fun h => h.deadlines
  · intro harmed
    refine ⟨harmed, ?_, ?_⟩
    · rintro returned ⟨⟩
      exact .inl rfl
    · rintro returned result ⟨⟩ hok
      cases hok

/-- A kill contains the process that it ends without a wait. -/
theorem contained_kill {error : SkillRunnerError} (harmed : m.Armed) :
    Contained codec config request p (m.kill p error) ↔ p.DiesAt m.now := by
  unfold Moment.kill SkillProcess.DiesAt
  cases hsignal : p.signal m.now with
  | refused message =>
    refine contained_leave_error.trans ?_
    constructor
    · exact fun h => .inl h.2
    · rintro (hexited | ⟨ends, hsent, _⟩)
      · exact ⟨harmed, hexited⟩
      · cases hsent
  | sent ends =>
    cases hfailure : p.waitFailure with
    | some message =>
      exact iff_of_true (contained_leaveKilled.mpr harmed) (.inr ⟨ends, rfl, nofun⟩)
    | none =>
      have hdies : (p.ExitedBy m.now ∨ ∃ ends', Signal.sent ends = .sent ends' ∧
          ((none : Option String) = none → ∃ time, ends' = some time ∧ time ≤ m.now)) ↔
          ∃ time, p.endAfter m.now ends = some time ∧ time ≤ m.now := by
        rw [endAfter_iff]
        refine or_congr_right ⟨?_, fun h => ⟨ends, rfl, fun _ => h⟩⟩
        rintro ⟨_, ⟨⟩, h⟩
        exact h rfl
      rw [hdies]
      rcases await_open (m := m) .exit (p.endAfter m.now ends) with
        ⟨hends, hawait⟩ | ⟨hlater, m', hopen, hwait⟩
      · simp only [hawait]
        exact iff_of_true (contained_leaveKilled.mpr harmed) hends
      · refine iff_of_false ?_ hlater
        rcases hwait with hawait | hawait
        · simp only [hawait]
          exact fun h => hopen (contained_leaveKilled.mp h)
        · simp only [hawait]
          exact fun h => hopen h.deadlines

theorem contained_leave_ok {line : List UInt8} {t : Nat} {output : Json}
    {actionRequests : List ActionRequest} (harmed : m.Armed) (hexited : p.ExitedBy m.now)
    (hline : p.FirstLine line t) (hlength : line.length ≤ config.maxOutputBytes)
    (hdecode : codec.fromSlice line = .ok (.invokeResult request.id output actionRequests))
    (hcode : p.exitCode = some 0) :
    Contained codec config request p
      (m.leave (.ok ⟨⟨request.id, output, actionRequests⟩⟩)) := by
  refine ⟨harmed, ?_, ?_⟩
  · rintro returned ⟨⟩
    exact .inr hexited
  · rintro returned result ⟨⟩ ⟨⟩
    exact ⟨line, t, hline, hlength, hdecode, rfl, hcode⟩

/-- A wait for the exit that no deadline ends: it is contained where there is no wait. -/
theorem contained_awaitExit_silent (harmed : m.Armed) :
    Contained codec config request p (awaitExit p m none fun m => m.leave (.error .noOutput)) ↔
      p.ExitedBy m.now := by
  have hleave : ∀ m' : Moment, Contained codec config request p
      (if p.exitCode = some 0 then m'.leave (.error .noOutput)
        else m'.leave (.error (.skillExitedNonZero p.exitCode))) ↔ m'.Armed ∧ p.ExitedBy m'.now := by
    intro m'
    split
    · exact contained_leave_error
    · exact contained_leave_error
  unfold awaitExit
  split
  · exact contained_leave_error.trans (and_iff_right harmed)
  · rcases await_open (m := m) .exit p.exitTime with
      ⟨hexited, hawait⟩ | ⟨hlater, m', hopen, hwait⟩
    · simp only [hawait]
      exact (hleave m).trans (and_iff_right harmed)
    · refine iff_of_false ?_ (fun h => hlater (exitedBy_iff.mp h))
      rcases hwait with hawait | hawait
      · simp only [hawait]
        exact fun h => hopen ((hleave m').mp h).1
      · simp only [hawait]
        exact fun h => hopen h.deadlines

/-- The wait for the exit after an answer. -/
theorem contained_awaitExit {line : List UInt8} {d t : Nat} {output : Json}
    {actionRequests : List ActionRequest} (harmed : m.Armed) (hd : m.now ≤ d)
    (hline : p.FirstLine line t) (hlength : line.length ≤ config.maxOutputBytes)
    (hdecode : codec.fromSlice line = .ok (.invokeResult request.id output actionRequests)) :
    Contained codec config request p (awaitExit p m (some d) fun m =>
        m.leave (.ok ⟨⟨request.id, output, actionRequests⟩⟩)) ↔ p.WaitEnds m.now d := by
  unfold awaitExit SkillProcess.WaitEnds
  cases hfailure : p.waitFailure with
  | some message =>
    refine contained_leave_error.trans ?_
    constructor
    · exact fun h => ⟨nofun, fun _ => h.2⟩
    · exact fun h => ⟨harmed, h.2 (Option.some_ne_none message)⟩
  | none =>
    have hdies : ((none : Option String) = none → p.DiesAt d) ∧
        ((none : Option String) ≠ none → p.ExitedBy m.now) ↔ p.DiesAt d := by simp
    rw [hdies]
    by_cases hexited : p.ExitedBy d
    · obtain ⟨time, htime, hlate⟩ := exitedBy_iff.mp hexited
      obtain ⟨m', hawait, hnow, harmed'⟩ := await_in_time (c := .exit) harmed hlate
      have hexited' : p.ExitedBy m'.now := exitedBy_iff.mpr ⟨time, htime, by omega⟩
      refine iff_of_true ?_ (.inl hexited)
      simp only [htime, hawait]
      split
      · rename_i hcode
        exact contained_leave_ok harmed' hexited' hline hlength hdecode hcode
      · exact contained_leave_error.mpr ⟨harmed', hexited'⟩
    · have hlate : ∀ time, p.exitTime = some time → d < time := fun time htime =>
        Nat.lt_of_not_le fun hle => hexited (exitedBy_iff.mpr ⟨time, htime, hle⟩)
      obtain ⟨m', hawait, hnow, harmed'⟩ := await_late (c := .exit) harmed hd hlate
      simp only [hawait]
      rw [contained_kill harmed', hnow]

/-- What is answered in time. -/
theorem contained_respond {line : List UInt8} (harmed : m.Armed)
    (hline : p.FirstLine line m.now) (hlength : line.length ≤ config.maxOutputBytes) :
    Contained codec config request p (respond codec config request p m line) ↔
      (∀ message, codec.fromSlice line = .error message → p.ExitedBy m.now) ∧
        (∀ message, codec.fromSlice line = .ok message → ¬ message.IsResult request.id →
          p.DiesAt m.now) ∧
        ∀ message, codec.fromSlice line = .ok message → message.IsResult request.id →
          p.WaitEnds m.now (m.now + config.timeout) := by
  -- A message that is not the result is answered by a kill.
  have hrefused : ∀ {message : SkillMessage} {error : SkillRunnerError},
      codec.fromSlice line = .ok message → ¬ message.IsResult request.id →
        (Contained codec config request p (m.kill p error) ↔
          (∀ text, codec.fromSlice line = .error text → p.ExitedBy m.now) ∧
            (∀ message, codec.fromSlice line = .ok message → ¬ message.IsResult request.id →
              p.DiesAt m.now) ∧
            ∀ message, codec.fromSlice line = .ok message → message.IsResult request.id →
              p.WaitEnds m.now (m.now + config.timeout)) := by
    intro message error hdecode hresult
    rw [contained_kill harmed, hdecode]
    constructor
    · refine fun h => ⟨nofun, fun _ _ _ => h, ?_⟩
      rintro _ ⟨⟩ hresult'
      exact absurd hresult' hresult
    · exact fun h => h.2.1 message rfl hresult
  unfold respond
  split
  · rename_i message hdecode
    rw [contained_leave_error, hdecode]
    constructor
    · exact fun h => ⟨fun _ _ => h.2, nofun, nofun⟩
    · exact fun h => ⟨harmed, h.1 message rfl⟩
  · rename_i id output actionRequests hdecode
    by_cases hid : id = request.id
    · subst hid
      rw [if_neg (not_not.mpr rfl),
        contained_awaitExit harmed (Nat.le_add_right _ _) hline hlength hdecode, hdecode]
      constructor
      · refine fun h => ⟨nofun, ?_, fun _ _ _ => h⟩
        rintro _ ⟨⟩ hother
        exact absurd rfl hother
      · exact fun h => h.2.2 _ rfl rfl
    · rw [if_pos hid]
      exact hrefused hdecode hid
  all_goals
    rename_i hdecode
    exact hrefused hdecode id

/-- What is done with the first line, or without one. -/
theorem contained_afterRead {ending : LineEnd} (harmed : m.Armed)
    (hline : ∀ line, ending = .line line →
      p.FirstLine line m.now ∧ line.length ≤ config.maxOutputBytes) :
    Contained codec config request p (afterRead codec config request p (m, ending)) ↔
      Answers codec config request p ending m.now := by
  cases ending with
  | line line =>
    obtain ⟨hfirst, hlength⟩ := hline line rfl
    refine (contained_respond harmed hfirst hlength).trans ?_
    constructor
    · rintro ⟨hgarbled, hrefused, hwaited⟩
      refine ⟨nofun, nofun, nofun, ?_, ?_, ?_⟩
      · rintro _ message ⟨⟩
        exact hgarbled message
      · rintro _ message ⟨⟩
        exact hrefused message
      · rintro _ message ⟨⟩
        exact hwaited message
    · exact fun h => ⟨fun message => h.garbled line message rfl,
        fun message => h.refused line message rfl, fun message => h.waited line message rfl⟩
  | noOutput =>
    refine (contained_awaitExit_silent harmed).trans ?_
    exact ⟨fun h => ⟨fun _ => h, nofun, nofun, nofun, nofun, nofun⟩, fun h => h.silent rfl⟩
  | failed error =>
    refine (contained_kill harmed).trans ?_
    exact ⟨fun h => ⟨nofun, fun _ _ => h, nofun, nofun, nofun, nofun⟩, fun h => h.broken error rfl⟩
  | elapsed =>
    refine (contained_kill harmed).trans ?_
    exact ⟨fun h => ⟨nofun, nofun, fun _ => h, nofun, nofun, nofun⟩, fun h => h.stalled rfl⟩

end Return

/-! ## Reading the line -/

section Line

variable {p : SkillProcess} {d maxBytes room : Nat} {m : Moment} {bytes : List UInt8}

theorem readStdout_in_time {i t : Nat} {event : StdoutEvent} (harmed : m.Armed) (ht : t ≤ d)
    (hevent : p.stdout i = some (t, event)) :
    ∃ m', readStdout p d m i = (m', some event) ∧ m'.now = max m.now t ∧ m'.Armed := by
  obtain ⟨m', hawait, hnow, harmed'⟩ := await_in_time (c := .stdout) harmed ht
  refine ⟨m', ?_, hnow, harmed'⟩
  rw [readStdout, hevent, Option.map_some, hawait, Option.map_some]

theorem readStdout_late {i : Nat} (harmed : m.Armed) (hnow : m.now ≤ d)
    (hlate : ∀ t event, p.stdout i = some (t, event) → d < t) :
    ∃ m', readStdout p d m i = (m', none) ∧ m'.now = d ∧ m'.Armed := by
  have hready : ∀ t, (p.stdout i).map (·.1) = some t → d < t := by
    intro t ht
    obtain ⟨⟨_, event⟩, hevent, rfl⟩ := Option.map_eq_some_iff.mp ht
    exact hlate _ event hevent
  obtain ⟨m', hawait, hend, harmed'⟩ := await_late (c := .stdout) harmed hnow hready
  exact ⟨m', by rw [readStdout, hawait], hend, harmed'⟩

theorem lineFrom_of_outputEnds {ending : LineEnd} {now t : Nat}
    (h : p.OutputEnds d maxBytes bytes now ending t) (hlength : bytes.length ≤ maxBytes) :
    ∀ line, ending = .line line → p.LineFrom bytes now line t ∧ line.length ≤ maxBytes := by
  induction h with
  | newline hroom ht hevent =>
    rintro _ ⟨⟩
    exact ⟨.newline hevent, by rw [List.length_append, List.length_singleton]; exact hroom⟩
  | closed hsome ht hevent =>
    rintro _ ⟨⟩
    exact ⟨.closed hsome hevent, hlength⟩
  | more hb hroom ht hevent hrest ih =>
    intro line hline
    have hmore := ih (by rw [List.length_append, List.length_singleton]; exact hroom) line hline
    exact ⟨.more hb hevent hmore.1, hmore.2⟩
  | silent => nofun
  | broken => nofun
  | full => nofun
  | late => nofun

/-- One event of the output; what follows a byte is left open. -/
theorem exists_outputEnds_of_byte {now : Nat}
    (hbyte : ∀ t b, t ≤ d → p.stdout bytes.length = some (t, .byte b) →
      ∃ ending t', p.OutputEnds d maxBytes bytes now ending t') :
    ∃ ending t, p.OutputEnds d maxBytes bytes now ending t := by
  by_cases hlate : ∀ t event, p.stdout bytes.length = some (t, event) → d < t
  · exact ⟨_, _, .late hlate⟩
  · simp only [not_forall, Nat.not_lt] at hlate
    obtain ⟨t, event, hevent, ht⟩ := hlate
    cases event with
    | byte b => exact hbyte t b ht hevent
    | error message => exact ⟨_, _, .broken ht hevent⟩
    | close =>
      by_cases hempty : bytes = []
      · subst hempty
        exact ⟨_, _, .silent ht hevent⟩
      · exact ⟨_, _, .closed hempty ht hevent⟩

/-- The output of every process comes to something. -/
theorem exists_outputEnds {now : Nat} (hroom : bytes.length + room = maxBytes) :
    ∃ ending t, p.OutputEnds d maxBytes bytes now ending t := by
  induction room generalizing bytes now with
  | zero =>
    exact exists_outputEnds_of_byte fun t b ht hevent => ⟨_, _, .full hroom ht hevent⟩
  | succ room ih =>
    refine exists_outputEnds_of_byte fun t b ht hevent => ?_
    have hfits : bytes.length < maxBytes := by omega
    by_cases hb : b = newline
    · subst hb
      exact ⟨_, _, .newline hfits ht hevent⟩
    · have hrest : (bytes ++ [b]).length + room = maxBytes := by
        rw [List.length_append, List.length_singleton]
        omega
      obtain ⟨ending, t', h⟩ : ∃ ending t',
          p.OutputEnds d maxBytes (bytes ++ [b]) (max now t) ending t' := ih hrest
      exact ⟨ending, t', .more hb hfits ht hevent h⟩

/-- The reader finds what the output comes to. -/
theorem readLineCapped_of_outputEnds {ending : LineEnd} {now t : Nat}
    (h : p.OutputEnds d maxBytes bytes now ending t) (hroom : bytes.length + room = maxBytes)
    (harmed : m.Armed) (hnow : m.now = now) (hd : now ≤ d) :
    ∃ m', readLineCapped p d maxBytes room m bytes = (m', ending) ∧ m'.now = t ∧ m'.Armed := by
  induction h generalizing room m with
  | newline hfits ht hevent =>
    obtain ⟨m', hread, htime, harmed'⟩ := readStdout_in_time harmed ht hevent
    obtain ⟨room, rfl⟩ : ∃ r, room = r + 1 := ⟨room - 1, by omega⟩
    refine ⟨m', ?_, by omega, harmed'⟩
    rw [readLineCapped, hread]
    exact if_pos rfl
  | @closed bytes now t hsome ht hevent =>
    obtain ⟨m', hread, htime, harmed'⟩ := readStdout_in_time harmed ht hevent
    have hfull : ¬ bytes.isEmpty = true := by simpa using hsome
    refine ⟨m', ?_, by omega, harmed'⟩
    rw [readLineCapped, hread]
    exact congrArg (Prod.mk m') (if_neg hfull)
  | silent ht hevent =>
    obtain ⟨m', hread, htime, harmed'⟩ := readStdout_in_time harmed ht hevent
    refine ⟨m', ?_, by omega, harmed'⟩
    rw [readLineCapped, List.length_nil, hread]
    rfl
  | broken ht hevent =>
    obtain ⟨m', hread, htime, harmed'⟩ := readStdout_in_time harmed ht hevent
    refine ⟨m', ?_, by omega, harmed'⟩
    rw [readLineCapped, hread]
  | full hfull ht hevent =>
    obtain ⟨m', hread, htime, harmed'⟩ := readStdout_in_time harmed ht hevent
    obtain rfl : room = 0 := by omega
    refine ⟨m', ?_, by omega, harmed'⟩
    rw [readLineCapped, hread]
  | late hlate =>
    obtain ⟨m', hread, htime, harmed'⟩ := readStdout_late harmed (by omega) hlate
    refine ⟨m', ?_, htime, harmed'⟩
    rw [readLineCapped, hread]
  | @more bytes b now t t' ending hb hfits ht hevent hrest ih =>
    obtain ⟨m', hread, htime, harmed'⟩ := readStdout_in_time harmed ht hevent
    obtain ⟨room, rfl⟩ : ∃ r, room = r + 1 := ⟨room - 1, by omega⟩
    have hroom' : (bytes ++ [b]).length + room = maxBytes := by
      rw [List.length_append, List.length_singleton]
      omega
    obtain ⟨m'', hline, hend⟩ := ih hroom' harmed' (by omega) (by omega)
    refine ⟨m'', ?_, hend⟩
    rw [readLineCapped, hread]
    exact (if_neg hb).trans hline

end Line

/-! ## The whole call -/

section Call

variable {codec : SkillCodec} {capacity : Nat} {config : RunnerConfig} {request : InvokeRequest}
  {p : SkillProcess}

/-- The read of the first line by a runner that has not waited yet. -/
def firstRead (config : RunnerConfig) (p : SkillProcess) : Moment × LineEnd :=
  readLineCapped p (0 + config.timeout) config.maxOutputBytes config.maxOutputBytes ⟨0, []⟩ []

theorem armed_start : Moment.Armed ⟨0, []⟩ := nofun

theorem firstRead_of_comesTo {ending : LineEnd} {t : Nat} (h : OutputComesTo config p ending t) :
    ∃ m, firstRead config p = (m, ending) ∧ m.now = t ∧ m.Armed := by
  unfold firstRead
  rw [Nat.zero_add]
  exact readLineCapped_of_outputEnds h (Nat.zero_add _) armed_start rfl (Nat.zero_le _)

/-- From the request on, the runner contains the processes that answer. -/
theorem contained_receive :
    Contained codec config request p (receive codec config request p ⟨0, []⟩) ↔
      ∀ ending t, OutputComesTo config p ending t → Answers codec config request p ending t := by
  obtain ⟨ending, t, hends⟩ : ∃ ending t, OutputComesTo config p ending t :=
    exists_outputEnds (Nat.zero_add _)
  obtain ⟨m, hread, rfl, harmed⟩ := firstRead_of_comesTo hends
  have hline : ∀ line, ending = .line line →
      p.FirstLine line m.now ∧ line.length ≤ config.maxOutputBytes :=
    lineFrom_of_outputEnds hends (Nat.zero_le _)
  have honly : ∀ ending' t, OutputComesTo config p ending' t → ending' = ending ∧ t = m.now := by
    intro ending' t h
    obtain ⟨m', hread', hnow, _⟩ := firstRead_of_comesTo h
    rw [hread] at hread'
    cases hread'
    exact ⟨rfl, hnow.symm⟩
  show Contained codec config request p (afterRead codec config request p (firstRead config p)) ↔ _
  rw [hread, contained_afterRead harmed hline]
  constructor
  · intro h ending' t h'
    obtain ⟨rfl, rfl⟩ := honly ending' t h'
    exact h
  · exact fun h => h ending m.now hends

end Call

/-! ## A wait is not forgotten -/

section Waits

variable {codec : SkillCodec} {config : RunnerConfig} {request : InvokeRequest}
  {p : SkillProcess} {m : Moment}

def Awaited.moment : Awaited → Moment
  | .ready m => m
  | .elapsed m => m
  | .never m => m

theorem waits_await (c : Channel) (d t : Option Nat) :
    m.waits ⊆ (m.await c d t).moment.waits := by
  have hadded : ∀ wait, m.waits ⊆ m.waits ++ [wait] := fun wait => List.subset_append_left _ _
  unfold Moment.await
  split
  · split
    · exact List.Subset.refl _
    · split
      · exact hadded _
      · exact hadded _
  · split
    · exact List.Subset.refl _
    · exact hadded _
  · exact hadded _
  · exact hadded _

theorem waits_readStdout (d i : Nat) : m.waits ⊆ (readStdout p d m i).1.waits := by
  have hkept := waits_await (m := m) .stdout (some d) ((p.stdout i).map (·.1))
  unfold readStdout
  split
  all_goals
    rename_i hawait
    rw [hawait] at hkept
    exact hkept

theorem waits_readLineCapped (d maxBytes room : Nat) (bytes : List UInt8) :
    m.waits ⊆ (readLineCapped p d maxBytes room m bytes).1.waits := by
  induction room generalizing m bytes with
  | zero =>
    have hkept := waits_readStdout (p := p) (m := m) d bytes.length
    rw [readLineCapped]
    generalize readStdout p d m bytes.length = r at hkept ⊢
    obtain ⟨m', _ | event⟩ := r
    · exact hkept
    · cases event <;> exact hkept
  | succ room ih =>
    have hkept := waits_readStdout (p := p) (m := m) d bytes.length
    rw [readLineCapped]
    generalize readStdout p d m bytes.length = r at hkept ⊢
    obtain ⟨m', _ | event⟩ := r
    · exact hkept
    cases event with
    | close => exact hkept
    | error message => exact hkept
    | byte b =>
      show m.waits ⊆ (if b = newline then (m', LineEnd.line (bytes ++ [b]))
        else readLineCapped p d maxBytes room m' (bytes ++ [b])).1.waits
      by_cases hb : b = newline
      · rw [if_pos hb]
        exact hkept
      · rw [if_neg hb]
        exact List.Subset.trans hkept (ih (bytes ++ [b]))

theorem waits_kill (error : SkillRunnerError) : m.waits ⊆ (m.kill p error).waits := by
  unfold Moment.kill
  split
  · exact List.Subset.refl _
  · exact List.Subset.refl _
  · rename_i ends _ _
    have hkept := waits_await (m := m) .exit none (p.endAfter m.now ends)
    split
    all_goals
      rename_i hawait
      rw [hawait] at hkept
      exact hkept

theorem waits_awaitExit {d : Option Nat} {exited : Moment → Invocation}
    (hexited : ∀ m, (exited m).waits = m.waits) : m.waits ⊆ (awaitExit p m d exited).waits := by
  have hkept := waits_await (m := m) .exit d p.exitTime
  unfold awaitExit
  split
  · exact List.Subset.refl _
  split
  · rename_i hawait
    rw [hawait] at hkept
    split
    · rw [hexited]
      exact hkept
    · exact hkept
  · rename_i hawait
    rw [hawait] at hkept
    exact List.Subset.trans hkept (waits_kill .timeout)
  · rename_i hawait
    rw [hawait] at hkept
    exact hkept

theorem waits_receive : m.waits ⊆ (receive codec config request p m).waits := by
  have hread := waits_readLineCapped (p := p) (m := m) (m.now + config.timeout)
    config.maxOutputBytes config.maxOutputBytes []
  refine List.Subset.trans hread ?_
  unfold receive
  generalize readLineCapped p _ _ _ m [] = r
  obtain ⟨m', outcome⟩ := r
  cases outcome with
  | line bytes =>
    show m'.waits ⊆ (respond codec config request p m' bytes).waits
    unfold respond
    split
    · exact List.Subset.refl _
    · split
      · exact waits_kill _
      · exact waits_awaitExit fun _ => rfl
    all_goals exact waits_kill _
  | noOutput => exact waits_awaitExit fun _ => rfl
  | failed error => exact waits_kill error
  | elapsed => exact waits_kill .timeout

end Waits

/-! ## Containment decided -/

section Decided

variable {codec : SkillCodec} {capacity : Nat} {config : RunnerConfig} {request : InvokeRequest}
  {p : SkillProcess}

theorem writeEnd_refused {n : Nat} (h : p.closesStdin = some 0) :
    p.writeEnd capacity n = some (0, some "Broken pipe (os error 32)") := by
  unfold SkillProcess.writeEnd
  rw [h]
  generalize (if n ≤ capacity then some 0 else p.reads (n - capacity)) = taken
  cases taken with
  | none => rfl
  | some t => exact if_pos (Nat.zero_le t)

theorem writeEnd_taken {n : Nat} (h : TakesAtOnce capacity p n) :
    p.writeEnd capacity n = some (0, none) := by
  obtain ⟨hopen, htaken⟩ := h
  have hat : (if n ≤ capacity then some 0 else p.reads (n - capacity)) = some 0 := by
    split
    · rfl
    · rename_i hlarge
      exact htaken.resolve_left hlarge
  unfold SkillProcess.writeEnd
  rw [hat]
  cases hclose : p.closesStdin with
  | none => rfl
  | some c =>
    refine if_neg ?_
    rw [hclose] at hopen
    intro hc
    exact hopen (congrArg some (Nat.le_zero.mp hc))

/-- A request that is not taken at once is waited for. -/
theorem writeEnd_later {n : Nat} (hopen : p.closesStdin ≠ some 0)
    (hlater : ¬ TakesAtOnce capacity p n) :
    ∀ t failure, p.writeEnd capacity n = some (t, failure) → 0 < t := by
  intro t failure h
  have hlarge : ¬ n ≤ capacity := fun hle => hlater ⟨hopen, .inl hle⟩
  have hunread : p.reads (n - capacity) ≠ some 0 := fun hread => hlater ⟨hopen, .inr hread⟩
  have hclosed : ∀ c, p.closesStdin = some c → 0 < c := by
    intro c hc
    refine Nat.pos_of_ne_zero ?_
    rintro rfl
    exact hopen hc
  have hread : ∀ s, p.reads (n - capacity) = some s → 0 < s := by
    intro s hs
    refine Nat.pos_of_ne_zero ?_
    rintro rfl
    exact hunread hs
  unfold SkillProcess.writeEnd at h
  rw [if_neg hlarge] at h
  cases hc : p.closesStdin with
  | none =>
    cases hs : p.reads (n - capacity) with
    | none =>
      rw [hc, hs] at h
      cases h
    | some s =>
      rw [hc, hs] at h
      cases h
      exact hread _ hs
  | some c =>
    cases hs : p.reads (n - capacity) with
    | none =>
      rw [hc, hs] at h
      cases h
      exact hclosed _ hc
    | some s =>
      rw [hc, hs] at h
      replace h : (if c ≤ s then some (c, some "Broken pipe (os error 32)") else some (s, none)) =
        some (t, failure) := h
      split at h
      · cases h
        exact hclosed _ hc
      · cases h
        exact hread _ hs

theorem contained_invokeChild :
    Contained codec config request p (invokeChild codec capacity config request p) ↔
      Behaves codec capacity config request p := by
  unfold invokeChild Behaves
  cases hencode : codec.encodeNdjson request.intoMessage with
  | error message =>
    refine contained_leave_error.trans ?_
    constructor
    · exact fun h => .inl ⟨h.2, .inr ⟨message, rfl⟩⟩
    · rintro (h | ⟨_, h, _⟩)
      · exact ⟨armed_start, h.1⟩
      · cases h
  | ok encoded =>
    by_cases hrefused : p.closesStdin = some 0
    · simp only [writeEnd_refused hrefused]
      refine contained_leave_error.trans ?_
      constructor
      · exact fun h => .inl ⟨h.2, .inl hrefused⟩
      · rintro (h | ⟨_, _, htakes, _⟩)
        · exact ⟨armed_start, h.1⟩
        · exact absurd hrefused htakes.1
    by_cases htakes : TakesAtOnce capacity p encoded.length
    · simp only [writeEnd_taken htakes]
      refine contained_receive.trans ?_
      constructor
      · exact fun h => .inr ⟨encoded, rfl, htakes, h⟩
      · rintro (⟨_, h | ⟨_, h⟩⟩ | ⟨_, _, _, h⟩)
        · exact absurd h hrefused
        · cases h
        · exact h
    · refine iff_of_false ?_ ?_
      · intro h
        have hunarmed : (⟨.stdin, none⟩ : Wait) ∉ Invocation.waits _ := fun hwait =>
          h.deadlines _ hwait rfl
        refine hunarmed ?_
        cases hwrite : p.writeEnd capacity encoded.length with
        | none =>
          simp only [hwrite]
          exact List.mem_singleton.mpr rfl
        | some ending =>
          obtain ⟨t, failure⟩ := ending
          have hlate : ¬ t ≤ 0 := Nat.not_le.mpr (writeEnd_later hrefused htakes t failure hwrite)
          have hawait : Moment.await ⟨0, []⟩ .stdin none (some t) =
            .ready ⟨t, [⟨.stdin, none⟩]⟩ := if_neg hlate
          simp only [hwrite, Option.map_some, hawait]
          cases failure with
          | some message => exact List.mem_singleton.mpr rfl
          | none => exact waits_receive (List.mem_singleton.mpr rfl)
      · rintro (⟨_, h | ⟨_, h⟩⟩ | ⟨_, h, htakes', _⟩)
        · exact hrefused h
        · cases h
        · cases h
          exact htakes htakes'

/-- For every request and every behaviour of the process that is started for it. -/
theorem contained_iff (codec : SkillCodec) (host : SkillHost) (config : RunnerConfig)
    (request : InvokeRequest) :
    (∀ p, host.spawn (skillCommand host config) = .ok p →
      Contained codec config request p (invoke codec host config request)) ↔
    ∀ p, host.spawn (skillCommand host config) = .ok p →
      Behaves codec host.pipeCapacity config request p := by
  refine forall₂_congr fun p hspawn => ?_
  unfold invoke
  rw [hspawn]
  exact contained_invokeChild

end Decided

/-! ## A process that is left behind -/

/-- It closes its output at once and then sleeps. -/
def silentProcess : SkillProcess where
  reads := fun _ => none
  closesStdin := none
  stdout := fun _ => some (0, .close)
  exit := none

def silentHost : SkillHost where
  envVar := fun _ => none
  pipeCapacity := 65536
  spawn := fun _ => .ok silentProcess

def pingRequest : InvokeRequest where
  id := "r1"
  context := ⟨"single", "run-1", "step-1", 5000, none, []⟩
  input := .null

def pingText : String :=
  "\x7b\"type\":\"invoke\",\"id\":\"r1\",\"context\":\x7b\"tenant_id\":\"single\"," ++
    "\"run_id\":\"run-1\",\"step_id\":\"step-1\",\"time_budget_ms\":5000," ++
    "\"granted_capabilities\":[]\x7d,\"input\":null\x7d"

/-- The codec at this request and at no output. -/
def pingCodec : SkillCodec where
  toVec := fun _ => .ok (pingText.toUTF8.data.toList)
  fromSlice := fun _ => .error "EOF while parsing a value at line 1 column 0"

def pingConfig : RunnerConfig where
  command := "skill"

/-- The runner waits for its exit, under no deadline, for ever. -/
theorem silentProcess_not_contained :
    ¬ ∀ p, silentHost.spawn (skillCommand silentHost pingConfig) = .ok p →
      Contained pingCodec pingConfig pingRequest p
        (invoke pingCodec silentHost pingConfig pingRequest) := by
  intro h
  have hnever : ∀ t, ¬ silentProcess.ExitedBy t := by
    rintro t ⟨_, _, hexit, _⟩
    cases hexit
  have hspawn : silentHost.spawn (skillCommand silentHost pingConfig) = .ok silentProcess := rfl
  have hcall := h silentProcess hspawn
  unfold invoke at hcall
  rw [hspawn] at hcall
  rcases contained_invokeChild.mp hcall with ⟨hexited, _⟩ | ⟨_, _, _, hanswers⟩
  · exact hnever 0 hexited
  · have hsilent : OutputComesTo pingConfig silentProcess .noOutput 0 := .silent (Nat.zero_le _) rfl
    exact hnever 0 ((hanswers .noOutput 0 hsilent).silent rfl)

end Skill
end SecureAgnt
