/-
The exchange with a skill that plays by the protocol.

`exchange_answered` is about the runner and any process that takes the request, writes its
result as one message in time and exits with success: the process is given the request, and
the caller is given the result.
-/
import SecureAgnt.Skill.Contained
import SecureAgnt.Skill.Protocol

namespace SecureAgnt
namespace Skill

/-! ## Messages as bytes -/

def utf8 (text : List Char) : List UInt8 := text.flatMap String.utf8EncodeChar

/-- The bytes of a character are those of its number or have their highest bit set. -/
theorem mem_utf8EncodeChar {c : Char} {b : UInt8} (h : b ∈ String.utf8EncodeChar c) :
    ∃ n, n < 256 ∧ b = UInt8.ofNat n ∧ (n = c.val.toNat ∨ 128 ≤ n) := by
  unfold String.utf8EncodeChar at h
  dsimp only at h
  split at h
  · simp only [List.mem_singleton] at h
    exact ⟨_, by omega, h, .inl rfl⟩
  split at h
  · simp only [List.mem_cons, List.not_mem_nil, or_false] at h
    rcases h with h | h
    · exact ⟨_, by omega, h, .inr (by omega)⟩
    · exact ⟨_, by omega, h, .inr (by omega)⟩
  split at h
  · simp only [List.mem_cons, List.not_mem_nil, or_false] at h
    rcases h with h | h | h
    · exact ⟨_, by omega, h, .inr (by omega)⟩
    · exact ⟨_, by omega, h, .inr (by omega)⟩
    · exact ⟨_, by omega, h, .inr (by omega)⟩
  · simp only [List.mem_cons, List.not_mem_nil, or_false] at h
    rcases h with h | h | h | h
    · exact ⟨_, by omega, h, .inr (by omega)⟩
    · exact ⟨_, by omega, h, .inr (by omega)⟩
    · exact ⟨_, by omega, h, .inr (by omega)⟩
    · exact ⟨_, by omega, h, .inr (by omega)⟩

theorem newline_notMem_utf8 {text : List Char} (h : '\n' ∉ text) : newline ∉ utf8 text := by
  intro hmem
  obtain ⟨c, hc, hbyte⟩ := List.mem_flatMap.mp hmem
  obtain ⟨n, hn, hnewline, hcases⟩ := mem_utf8EncodeChar hbyte
  have hnat := congrArg UInt8.toNat hnewline
  rw [UInt8.toNat_ofNat', Nat.mod_eq_of_lt hn] at hnat
  have hten : n = 10 := hnat.symm
  have hval : c.val.toNat = 10 := by omega
  have hchar : c = '\n' := Char.ext (UInt32.toNat_inj.mp hval)
  exact h (hchar ▸ hc)

/-- `serde_json` between texts and bytes: how it writes floats, what it reads, and what it
says where the fields do not fit. -/
structure JsonReader where
  floats : FloatText
  parse : List UInt8 → Except String Json
  dataError : Json → String

namespace JsonReader

variable (r : JsonReader)

def message (v : Json) : Except String SkillMessage :=
  match readMessage v with
  | some message => .ok message
  | none => .error (r.dataError v)

def codec : SkillCodec where
  toVec message := .ok (utf8 (message.json.write r.floats))
  fromSlice bytes := r.parse bytes >>= r.message

/-- `encode_ndjson`. -/
def line (message : SkillMessage) : List UInt8 := utf8 (message.json.write r.floats) ++ [newline]

/-- The parser reads back the text that was written for the value. -/
def ReadsBack (v : Json) : Prop := r.parse (utf8 (v.write r.floats) ++ [newline]) = .ok v

end JsonReader

section Codec

variable {r : JsonReader} {message : SkillMessage}

theorem encodeNdjson_codec : r.codec.encodeNdjson message = .ok (r.line message) := rfl

/-- A message is one line. -/
theorem newline_notMem_line (h : message.Kept) :
    newline ∉ utf8 (message.json.write r.floats) :=
  newline_notMem_utf8 (Json.newline_notMem_write (isValue_json h))

theorem fromSlice_line (h : message.Kept) (hreads : r.ReadsBack message.json) :
    r.codec.fromSlice (r.line message) = .ok message := by
  have hparse : r.parse (r.line message) = .ok message.json := hreads
  show r.parse (r.line message) >>= r.message = _
  rw [hparse]
  show r.message message.json = _
  rw [JsonReader.message, readMessage_json h]

end Codec

/-! ## A process that answers -/

def InvokeResult.intoMessage (result : InvokeResult) : SkillMessage :=
  .invokeResult result.id result.output result.actionRequests

/-- From offset `i` on the process writes the bytes; after `now` the last of them is there
at `t`. -/
inductive SkillProcess.Writes (p : SkillProcess) : Nat → List UInt8 → Nat → Nat → Prop
  | done {i now : Nat} : Writes p i [] now now
  | byte {i now t t' : Nat} {b : UInt8} {bytes : List UInt8}
      (hevent : p.stdout i = some (t, .byte b)) (hrest : Writes p (i + 1) bytes (max now t) t') :
      Writes p i (b :: bytes) now t'

/-- The request is taken by `sent`, the result is written by `answered` and the process ends
by `exited`, each in time. -/
structure Cooperates (r : JsonReader) (capacity : Nat) (config : RunnerConfig)
    (request : InvokeRequest) (result : InvokeResult) (p : SkillProcess)
    (sent answered exited : Nat) : Prop where
  takes : p.writeEnd capacity (r.line request.intoMessage).length = some (sent, none)
  writes : p.Writes 0 (r.line result.intoMessage) sent answered
  fits : (r.line result.intoMessage).length ≤ config.maxOutputBytes
  answers_in_time : answered ≤ sent + config.timeout
  exits : p.exit = some (exited, some 0)
  exits_in_time : exited ≤ answered + config.timeout
  waits : p.waitFailure = none

section Exchange

variable {r : JsonReader} {p : SkillProcess} {config : RunnerConfig} {request : InvokeRequest}
  {result : InvokeResult} {m : Moment} {c : Channel} {d : Nat}

theorem await_by {t : Nat} (h : t ≤ d) :
    ∃ m', m.await c (some d) (some t) = .ready m' ∧ m'.now = max m.now t := by
  unfold Moment.await
  dsimp only
  by_cases hready : t ≤ m.now
  · rw [if_pos hready]
    exact ⟨m, rfl, by omega⟩
  · rw [if_neg hready, if_pos h]
    exact ⟨_, rfl, by show t = max m.now t; omega⟩

theorem now_le_of_writes {i now t : Nat} {bytes : List UInt8} (h : p.Writes i bytes now t) :
    now ≤ t := by
  induction h with
  | done => exact Nat.le_refl _
  | byte hevent hrest ih => omega

/-- The runner reads what the process writes up to the first newline. -/
theorem readLineCapped_of_writes {i now t maxBytes room : Nat} {bytes text : List UInt8}
    (h : p.Writes i (text ++ [newline]) now t) (htext : newline ∉ text) (hi : i = bytes.length)
    (hnow : m.now = now) (ht : t ≤ d) (hroom : text.length < room) :
    ∃ m', readLineCapped p d maxBytes room m bytes = (m', .line (bytes ++ text ++ [newline])) ∧
      m'.now = t := by
  induction text generalizing i now m bytes room with
  | nil =>
    cases h with
    | @byte _ _ t _ _ _ hevent hrest =>
      cases hrest
      obtain ⟨m', hawait, hlater⟩ := @await_by m .stdout d t (by omega)
      obtain ⟨room, rfl⟩ : ∃ n, room = n + 1 := ⟨room - 1, by simp at hroom; omega⟩
      rw [hi] at hevent
      refine ⟨m', ?_, by omega⟩
      rw [readLineCapped, readStdout, hevent, Option.map_some, hawait, List.append_nil]
      exact if_pos rfl
  | cons b text ih =>
    cases h with
    | @byte _ _ t' _ _ _ hevent hrest =>
      have hb : b ≠ newline := fun heq => htext (heq ▸ List.mem_cons_self)
      have hlast := now_le_of_writes hrest
      obtain ⟨m', hawait, hlater⟩ := @await_by m .stdout d t' (by omega)
      rw [List.length_cons] at hroom
      obtain ⟨room, rfl⟩ : ∃ n, room = n + 1 := ⟨room - 1, by omega⟩
      have hoffset : i + 1 = (bytes ++ [b]).length := by
        rw [List.length_append, List.length_singleton, hi]
      have hclock : m'.now = max now t' := by omega
      have hleft : text.length < room := by omega
      obtain ⟨m'', hline, hend⟩ := ih hrest (fun h => htext (List.mem_cons_of_mem _ h)) hoffset
        hclock hleft
      rw [hi] at hevent
      refine ⟨m'', ?_, hend⟩
      rw [readLineCapped, readStdout, hevent, Option.map_some, hawait]
      refine (if_neg hb).trans (hline.trans ?_)
      rw [List.append_assoc bytes]
      rfl

theorem awaitExit_of_exits {exited : Nat} {k : Moment → Invocation} (hwaits : p.waitFailure = none)
    (hexit : p.exit = some (exited, some 0)) (hd : exited ≤ d) :
    ∃ m', awaitExit p m (some d) k = k m' ∧ m'.now = max m.now exited := by
  obtain ⟨m', hawait, hnow⟩ := @await_by m .exit d exited hd
  refine ⟨m', ?_, hnow⟩
  have htime : p.exitTime = some exited := by rw [SkillProcess.exitTime, hexit, Option.map_some]
  have hcode : p.exitCode = some 0 := by rw [SkillProcess.exitCode, hexit, Option.bind_some]
  unfold awaitExit
  rw [hwaits]
  dsimp only
  rw [htime, hawait]
  dsimp only
  rw [if_pos hcode]

theorem receive_of_cooperates {capacity sent answered exited : Nat}
    (hresult : result.intoMessage.Kept) (hreads : r.ReadsBack result.intoMessage.json)
    (hid : result.id = request.id)
    (h : Cooperates r capacity config request result p sent answered exited) (hm : m.now = sent) :
    ∃ waits, receive r.codec config request p m =
      ⟨waits, some ⟨max answered exited, false, .ok ⟨result⟩⟩⟩ := by
  have hdeadline : answered ≤ m.now + config.timeout := by
    have := h.answers_in_time
    omega
  have hfits : (utf8 (result.intoMessage.json.write r.floats)).length < config.maxOutputBytes := by
    have hlength := h.fits
    rw [JsonReader.line, List.length_append, List.length_singleton] at hlength
    omega
  obtain ⟨m', hline, hanswered⟩ := @readLineCapped_of_writes p m _ 0 sent answered
    config.maxOutputBytes _ [] _ h.writes (newline_notMem_line hresult) rfl hm hdeadline hfits
  have hexits : exited ≤ m'.now + config.timeout := by
    have := h.exits_in_time
    omega
  obtain ⟨m'', hexit, hexited⟩ := @awaitExit_of_exits p m' _ exited
    (fun m => m.leave (.ok ⟨result⟩)) h.waits h.exits hexits
  refine ⟨m''.waits, ?_⟩
  unfold receive
  rw [hline, List.nil_append]
  show respond r.codec config request p m' (r.line result.intoMessage) = _
  unfold respond
  rw [fromSlice_line hresult hreads]
  show (if result.id ≠ request.id then _ else _) = _
  rw [if_neg fun hne => hne hid]
  refine hexit.trans ?_
  unfold Moment.leave
  rw [hexited, hanswered]

/-- The runner gives its caller the result of a process that cooperates. -/
theorem invoke_of_cooperates {host : SkillHost} {sent answered exited : Nat}
    (hspawn : host.spawn (skillCommand host config) = .ok p)
    (hresult : result.intoMessage.Kept) (hreads : r.ReadsBack result.intoMessage.json)
    (hid : result.id = request.id)
    (h : Cooperates r host.pipeCapacity config request result p sent answered exited) :
    ∃ waits, invoke r.codec host config request =
      ⟨waits, some ⟨max answered exited, false, .ok ⟨result⟩⟩⟩ := by
  have hsent : ∃ m : Moment, (⟨0, []⟩ : Moment).await .stdin none (some sent) = .ready m ∧
      m.now = sent := by
    unfold Moment.await
    dsimp only
    by_cases hnow : sent ≤ 0
    · rw [if_pos hnow]
      exact ⟨_, rfl, by show 0 = sent; omega⟩
    · rw [if_neg hnow]
      exact ⟨_, rfl, rfl⟩
  obtain ⟨m, hready, hm⟩ := hsent
  obtain ⟨waits, hreceive⟩ := receive_of_cooperates hresult hreads hid h hm
  refine ⟨waits, ?_⟩
  unfold invoke
  rw [hspawn]
  dsimp only
  unfold invokeChild
  rw [encodeNdjson_codec]
  dsimp only
  rw [h.takes, Option.map_some, hready]
  exact hreceive

/-- A skill that plays by the protocol is given the request as one line that it can read
back, and whatever else it does in the meantime its result is what the caller gets, without
a signal to the process. -/
theorem exchange_answered {host : SkillHost} {sent answered exited : Nat}
    (hspawn : host.spawn (skillCommand host config) = .ok p)
    (hrequest : request.intoMessage.Kept) (hresult : result.intoMessage.Kept)
    (hasked : r.ReadsBack request.intoMessage.json)
    (hreads : r.ReadsBack result.intoMessage.json) (hid : result.id = request.id)
    (h : Cooperates r host.pipeCapacity config request result p sent answered exited) :
    (∃ text, r.line request.intoMessage = text ++ [newline] ∧ newline ∉ text) ∧
      r.codec.fromSlice (r.line request.intoMessage) = .ok request.intoMessage ∧
      ∃ waits, invoke r.codec host config request =
        ⟨waits, some ⟨max answered exited, false, .ok ⟨result⟩⟩⟩ := by
  refine ⟨⟨_, rfl, newline_notMem_line hrequest⟩, fromSlice_line hrequest hasked, ?_⟩
  exact invoke_of_cooperates hspawn hresult hreads hid h

end Exchange

/-! ## A process that answers at once -/

section Echo

def helloInput : Json := .obj [("name", .str "Ada"), ("notes", .str "first\nsecond")]

def helloRequest : InvokeRequest where
  id := "r-1"
  context := ⟨"acme", "run-1", "step-1", 5000, some "trace-1", [⟨"object.write", "notes/*"⟩]⟩
  input := helloInput

def helloAction : ActionRequest where
  actionId := "a-1"
  actionType := "object.write"
  args := .obj [("content", .str "Hello, \"Ada\"!"), ("path", .str "notes/hello.txt")]
  justification := "the greeting is kept"
  actionContractVersion := none
  actionSchemaId := none

def helloResult : InvokeResult :=
  ⟨"r-1", .obj [("greeting", .str "Hello, Ada!")], [helloAction]⟩

def helloReader : JsonReader where
  floats := bitText
  -- behind `{"type":"invoke` the tag of a request ends
  parse bytes :=
    if bytes[15]? = some 34 then .ok helloRequest.intoMessage.json
    else .ok helloResult.intoMessage.json
  dataError := fun _ => "missing field"

theorem parse_helloReader (bytes : List UInt8) :
    helloReader.parse bytes = if bytes[15]? = some 34 then .ok helloRequest.intoMessage.json
      else .ok helloResult.intoMessage.json := rfl

def helloProcess : SkillProcess where
  reads := fun _ => some 0
  closesStdin := none
  stdout := fun i => (helloReader.line helloResult.intoMessage)[i]?.map fun b => (0, .byte b)
  exit := some (1, some 0)

def helloHost : SkillHost where
  envVar := fun _ => none
  pipeCapacity := 65536
  spawn := fun _ => .ok helloProcess

theorem writes_hello (before rest : List UInt8)
    (h : helloReader.line helloResult.intoMessage = before ++ rest) :
    helloProcess.Writes before.length rest 0 0 := by
  induction rest generalizing before with
  | nil => exact .done
  | cons b rest ih =>
    have hevent : helloProcess.stdout before.length = some (0, .byte b) := by
      show (helloReader.line helloResult.intoMessage)[before.length]?.map _ = _
      rw [h, List.getElem?_append_right (Nat.le_refl _), Nat.sub_self]
      rfl
    have hrest := ih (before ++ [b]) (by rw [h, List.append_assoc]; rfl)
    rw [List.length_append, List.length_singleton] at hrest
    exact .byte hevent hrest

theorem hello_answered : ∃ waits,
    invoke helloReader.codec helloHost { command := "skill" } helloRequest =
      ⟨waits, some ⟨1, false, .ok ⟨helloResult⟩⟩⟩ := by
  have hinput : Held helloInput :=
    ⟨by simp [helloInput, isValue_obj_iff, isValue_str], rfl⟩
  have hargs : Held helloAction.args :=
    ⟨by simp [helloAction, isValue_obj_iff, isValue_str], rfl⟩
  have houtput : Held helloResult.output :=
    ⟨by simp [helloResult, isValue_obj_iff, isValue_str], rfl⟩
  have hasked : helloReader.ReadsBack helloRequest.intoMessage.json := by
    have htag : (helloReader.line helloRequest.intoMessage)[15]? = some 34 := by decide +kernel
    show helloReader.parse (helloReader.line helloRequest.intoMessage) = _
    rw [parse_helloReader, if_pos htag]
  have hreads : helloReader.ReadsBack helloResult.intoMessage.json := by
    have htag : (helloReader.line helloResult.intoMessage)[15]? ≠ some 34 := by decide +kernel
    show helloReader.parse (helloReader.line helloResult.intoMessage) = _
    rw [parse_helloReader, if_neg htag]
  have hcooperates : Cooperates helloReader helloHost.pipeCapacity { command := "skill" }
      helloRequest helloResult helloProcess 0 0 1 := by
    constructor
    · have hfits : (helloReader.line helloRequest.intoMessage).length ≤ 65536 := by
        decide +kernel
      unfold SkillProcess.writeEnd
      rw [show helloHost.pipeCapacity = 65536 from rfl, if_pos hfits]
      rfl
    · exact writes_hello [] _ rfl
    · decide +kernel
    · exact Nat.zero_le _
    · rfl
    · decide
    · rfl
  have hrequest : helloRequest.intoMessage.Kept := ⟨by decide, hinput⟩
  have hresult : helloResult.intoMessage.Kept := by
    refine ⟨houtput, fun action h => ?_⟩
    rw [List.mem_singleton.mp h]
    exact hargs
  have hspawn : helloHost.spawn (skillCommand helloHost { command := "skill" }) =
    .ok helloProcess := rfl
  exact (exchange_answered hspawn hrequest hresult hasked hreads rfl hcooperates).2.2

end Echo

end Skill
end SecureAgnt
