import AgentLoop.Proofs.Histories

/-!
# What becomes of a history that is taken over

A transcript keeps the first two messages of a history and every message of the assistant as they
are.  A later user message and a result are made anew from what they say, with the stamp of their
position.  If the history has no data in a place where a new message has none, nothing is lost but
the identity of these messages: their id and their time.

* `Tidy` says that a history has no data in such a place, and `retold` what becomes of a message.
* `take_retold` is one message and `takeAll_retold` the induction; `messages_adopt`
  says that the transcript then holds what `retell` says.
* `retell_eq_iff`: nothing is changed exactly if every message that is made anew has the
  stamp of its position already.  `messages_adopt_eq_iff` puts the parts together.
-/

namespace AgentLoop

namespace Message

/-- The same message with another identity. -/
def restamped (stamp : Stamp) (m : Message) : Message :=
  { m with id := stamp.id, timestamp := stamp.time }

/-- What becomes of a message that is taken over. -/
def retold (stamp : Stamp) (m : Message) : Message :=
  if m.role = .assistant then m else m.restamped stamp

/-- The message has this identity. -/
def Bears (m : Message) (stamp : Stamp) : Prop := m.id = stamp.id ∧ m.timestamp = stamp.time

variable {m : Message} {stamp : Stamp}

theorem retold_eq_iff : m.retold stamp = m ↔ (m.role ≠ .assistant → m.Bears stamp) := by
  rw [retold]
  split
  · next hrole => simp [hrole]
  · next hrole =>
    constructor
    · intro h _
      exact ⟨(congrArg Message.id h).symm, (congrArg Message.timestamp h).symm⟩
    · intro h
      obtain ⟨hid, htime⟩ := h hrole
      rw [restamped, ← hid, ← htime]

end Message

/-- The messages have no data where a message of their role needs none, and a result names the tool
of the call that it answers. -/
structure Tidy (messages : List Message) : Prop where
  calls : ∀ m ∈ messages, m.role ≠ .assistant → m.toolCalls = []
  users : ∀ m ∈ messages, m.role = .user → m.toolCallId = none ∧ m.toolName = none
  results : ∀ before m after call calls, messages = before ++ m :: after →
    Leaves before (call :: calls) → m.role = .tool → m.toolName = some call.name

/-- What a transcript holds after it has taken over these messages. -/
def retell (stamps : Stamps) (messages : List Message) : List Message :=
  messages.mapIdx fun n m => if n < 2 then m else m.retold (stamps n)

variable {messages before after : List Message} {m : Message}

theorem retell_cons_cons (stamps : Stamps) (system user : Message) (rest : List Message) :
    retell stamps (system :: user :: rest) =
      system :: user :: rest.mapIdx fun n m => m.retold (stamps (2 + n)) := by
  have hlater : ∀ n, ¬ n + 1 + 1 < 2 := fun n => Nat.not_lt.2 (Nat.le_add_left 2 n)
  simp only [retell, List.mapIdx_cons, hlater, if_false, Nat.add_comm 2]
  rfl

/-- Nothing is changed exactly if every message that is made anew has the stamp of its position
already. -/
theorem retell_eq_iff {stamps : Stamps} :
    retell stamps messages = messages ↔
      ∀ n m, messages[n]? = some m → 2 ≤ n → m.role ≠ .assistant → m.Bears (stamps n) := by
  rw [List.ext_getElem?_iff]
  refine forall_congr' fun n => ?_
  rw [retell, List.getElem?_mapIdx]
  cases messages[n]? with
  | none => simp
  | some m =>
    by_cases hn : n < 2
    · have hn' : ¬ 2 ≤ n := Nat.not_le.2 hn
      simp [hn, hn']
    · have hn' : 2 ≤ n := Nat.not_lt.1 hn
      simp [hn, hn', Message.retold_eq_iff]

/-- If all stamps are new, nothing is changed exactly if only the assistant speaks after the first
two messages. -/
theorem retell_eq_iff_of_fresh {stamps : Stamps}
    (hfresh : ∀ n, ∀ m ∈ messages, m.id ≠ (stamps n).id) :
    retell stamps messages = messages ↔ ∀ m ∈ messages.drop 2, m.role = .assistant := by
  rw [retell_eq_iff]
  constructor
  · intro h m hm
    obtain ⟨n, hn⟩ := List.mem_iff_getElem?.1 hm
    rw [List.getElem?_drop] at hn
    by_contra hrole
    exact hfresh _ m (List.mem_of_getElem? hn) (h _ m hn (Nat.le_add_right 2 n) hrole).1
  · intro h n m hn htwo hrole
    refine absurd (h m (List.mem_iff_getElem?.2 ⟨n - 2, ?_⟩)) hrole
    rw [List.getElem?_drop, Nat.add_sub_cancel' htwo, hn]

namespace Transcript

variable {stamps : Stamps} {t t' : Transcript}

/-- A message that is taken over is kept or made anew, and a message of a tidy history is the same
afterwards but for its identity. -/
theorem take_retold (hbefore : Leaves before t.pending) (htidy : Tidy (before ++ m :: after))
    (htake : t.take stamps m = .ok t') :
    t'.messages = t.messages ++ [m.retold (stamps t.length)] := by
  have hmem : m ∈ before ++ m :: after := List.mem_append_right _ List.mem_cons_self
  have hcalls := htidy.calls m hmem
  have husers := htidy.users m hmem
  have hresults := htidy.results before m after
  rw [take] at htake
  split at htake
  · cases htake
  · next hrole =>
    obtain ⟨-, rfl⟩ := pushUser_eq_ok_iff.1 htake
    obtain ⟨hid, hname⟩ := husers hrole
    have hnew : Message.user (stamps t.length) m.content = m.retold (stamps t.length) := by
      simp [Message.retold, Message.restamped, Message.user, Message.plain, hrole, hid, hname,
        hcalls]
    rw [hnew]
  · obtain ⟨hrole, -, -, rfl⟩ := pushAssistant_eq_ok_iff.1 htake
    rw [Message.retold, if_pos hrole]
  · next hrole =>
    split at htake
    · cases htake
    · next id hid =>
      obtain ⟨call, calls, hpending, rfl, rfl⟩ := pushToolResult_eq_ok_iff.1 htake
      have hname := hresults call calls rfl (hpending ▸ hbefore) hrole
      have hnew : Message.toolResult (stamps t.length) call m.content =
          m.retold (stamps t.length) := by
        simp [Message.retold, Message.restamped, Message.toolResult, Message.plain, hrole, hid,
          hname, hcalls]
      rw [hnew]

theorem takeAll_retold (hbefore : Leaves before t.pending) (htidy : Tidy (before ++ messages))
    (htake : t.takeAll stamps messages = .ok t') :
    t'.messages =
      t.messages ++ messages.mapIdx fun n m => m.retold (stamps (t.length + n)) := by
  induction messages generalizing before t with
  | nil =>
    cases htake
    simp
  | cons m messages ih =>
    obtain ⟨next, hm, hrest⟩ := takeAll_cons_eq_ok_iff.1 htake
    have hnext := take_retold hbefore htidy hm
    have hlength : next.length = t.length + 1 := by simp [length, hnext]
    rw [ih (leaves_take hbefore hm) (by simpa using htidy) hrest, hnext, hlength]
    simp [List.mapIdx_cons, Nat.add_assoc, Nat.add_comm 1]

/-- A tidy history is taken over as it is but for the identity of its later messages. -/
theorem messages_adopt (h : adopt stamps messages = .ok t) (htidy : Tidy messages) :
    t.messages = retell stamps messages := by
  obtain ⟨⟨system, user, rest, rfl, hsystem, huser, hrest⟩, -⟩ := adopt_eq_ok_iff.1 h
  have hopening : Leaves [system, user] [] := .settled (isHistory_pair hsystem huser)
  rw [takeAll_retold (t := ⟨[system, user], []⟩) hopening htidy hrest, retell_cons_cons]
  rfl

/-- The transcript of a tidy history holds the same messages, but every user message and result
after the first two messages gets the stamp of its position.  So the history is taken over unchanged
exactly if all these messages had that stamp before; and where all stamps are new, exactly if only
the assistant speaks after the first two messages. -/
theorem messages_adopt_eq_iff (h : adopt stamps messages = .ok t) (htidy : Tidy messages) :
    t.messages = retell stamps messages ∧
      (t.messages = messages ↔
        ∀ n m, messages[n]? = some m → 2 ≤ n → m.role ≠ .assistant → m.Bears (stamps n)) ∧
      ((∀ n, ∀ m ∈ messages, m.id ≠ (stamps n).id) →
        (t.messages = messages ↔ ∀ m ∈ messages.drop 2, m.role = .assistant)) := by
  rw [messages_adopt h htidy]
  exact ⟨rfl, retell_eq_iff, retell_eq_iff_of_fresh⟩

/-- A history that goes on with a second question. -/
def secondQuestion : List Message :=
  [.system ⟨"m0", default⟩ "s", .user ⟨"m1", default⟩ "u", .user ⟨"m2", default⟩ "again"]

/-- All new messages get the same id, which no message has yet. -/
def freshStamps : Stamps := fun _ => ⟨"new", default⟩

/-- The second question gets another id. -/
theorem messages_adopt_secondQuestion :
    Tidy secondQuestion ∧ (∀ m ∈ secondQuestion, m.id ≠ (freshStamps 0).id) ∧
      ∃ t, adopt freshStamps secondQuestion = .ok t ∧ t.messages ≠ secondQuestion := by
  refine ⟨⟨by decide, by decide, ?_⟩, by decide, _, rfl, by decide⟩
  rintro before m after call calls hmessages - hrole
  have hmem : m ∈ secondQuestion := hmessages ▸ List.mem_append_right _ List.mem_cons_self
  have hroles : ∀ m ∈ secondQuestion, m.role ≠ .tool := by decide
  exact absurd hrole (hroles m hmem)

/-- A call of a tool that needs no arguments. -/
def weatherCall : ToolCall := ⟨"c1", "weather", "\x7b\x7d"⟩

/-- A history in which a call has its result. -/
def weatherReport : List Message :=
  [.system ⟨"m0", default⟩ "s", .user ⟨"m1", default⟩ "u",
    .assistant ⟨"m2", default⟩ "" [weatherCall],
    .toolResult ⟨"m3", default⟩ weatherCall "sunny"]

/-- The only result is the fourth message, and the call is open before it. -/
theorem tidy_weatherReport : Tidy weatherReport := by
  refine ⟨by decide, by decide, ?_⟩
  intro before m after call calls hmessages hleaves hrole
  have hm : weatherReport[before.length]? = some m := by simp [hmessages]
  have hbefore : weatherReport.take before.length = before := by simp [hmessages]
  have honly : ∀ n < 4, ∀ m ∈ weatherReport[n]?, m.role = .tool → n = 3 := by decide
  have hthree : before.length = 3 :=
    honly _ (List.getElem?_eq_some_iff.1 hm).1 m hm hrole
  rw [hthree] at hm hbefore
  have hopening : IsHistory (weatherReport.take 2) := isHistory_pair rfl rfl
  have hopen : Leaves before [weatherCall] :=
    hbefore ▸ .awaiting hopening rfl (by decide) (List.nil_append _).symm .nil
  obtain rfl : call = weatherCall := (List.cons.inj (hleaves.unique hopen)).1
  cases hm
  rfl

/-- The result gets another id, and nothing else is changed. -/
theorem messages_adopt_weatherReport :
    ∃ t, adopt freshStamps weatherReport = .ok t ∧ t.messages = retell freshStamps weatherReport ∧
      t.messages ≠ weatherReport := by
  obtain ⟨t, htaken⟩ : ∃ t, adopt freshStamps weatherReport = .ok t := ⟨_, rfl⟩
  obtain ⟨hretold, -, hfresh⟩ := messages_adopt_eq_iff htaken tidy_weatherReport
  refine ⟨t, htaken, hretold, ?_⟩
  rw [ne_eq, hfresh fun _ => (by decide : ∀ m ∈ weatherReport, m.id ≠ (freshStamps 0).id)]
  decide

end Transcript

end AgentLoop
