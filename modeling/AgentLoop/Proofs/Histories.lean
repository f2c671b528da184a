import AgentLoop.Proofs.Conversation

/-!
# Which histories are taken over

A transcript takes over a list of messages by reading it once, with the open calls as all it
remembers.  Which lists it accepts can be said of the finished list, and so can the error for a list
that it does not accept.

* `IsHistory` is a settled history: a system message, a user message and items.  It is weaker than
  `InGoodOrder`, since a result that is handed over need not name its tool.
* `Continuable` messages can be the first ones of a history, and `Leaves` says which calls are then
  without a result.  `Leaves.unique`: there is only one way to read them.  `continuable_iff` says that
  all messages that can be read so far are continuable, and no others.
* `Misfit` says why a message cannot follow continuable ones, and `Unfinished` why messages cannot
  end where they do.
* `take_eq_error_iff` is the step, and `takenOver_iff_leaves` the induction: the reader has got
  through the messages exactly when they leave the calls that it remembers.
* `adopt_classifies` puts the parts together.
-/

namespace AgentLoop

/-! ## Histories -/

/-- The message gives the result of the call, whatever tool it names. -/
def Message.Resolves (m : Message) (call : ToolCall) : Prop :=
  m.role = .tool ∧ m.toolCallId = some call.id

/-- A message of the user, or a message of the assistant whose calls have different ids, with the
results of these calls in their order. -/
inductive IsItem : List Message → Prop where
  | user {m : Message} (hrole : m.role = .user) : IsItem [m]
  | exchange {m : Message} {given : List Message} (hrole : m.role = .assistant)
      (hids : (m.toolCalls.map ToolCall.id).Nodup)
      (hgiven : List.Forall₂ Message.Resolves given m.toolCalls) : IsItem (m :: given)

/-- A system message, a user message and items. -/
def IsHistory (messages : List Message) : Prop :=
  ∃ system user items, messages = system :: user :: List.flatten items ∧
    system.role = .system ∧ user.role = .user ∧ ∀ item ∈ items, IsItem item

/-- The messages can be the first ones of a history. -/
def Continuable (messages : List Message) : Prop := ∃ rest, IsHistory (messages ++ rest)

/-- A history may end with these messages, but for the results of these calls. -/
inductive Leaves : List Message → List ToolCall → Prop where
  | settled {messages : List Message} (h : IsHistory messages) : Leaves messages []
  | awaiting {messages given : List Message} {m : Message} {answered calls : List ToolCall}
      (h : IsHistory messages) (hrole : m.role = .assistant)
      (hids : (m.toolCalls.map ToolCall.id).Nodup) (hcalls : m.toolCalls = answered ++ calls)
      (hgiven : List.Forall₂ Message.Resolves given answered) :
      Leaves (messages ++ m :: given) calls

variable {messages before given : List Message} {m : Message} {call : ToolCall}
  {calls calls' : List ToolCall} {e : TranscriptError}

/-- In a conversation in good order a result also names its tool. -/
theorem IsBlock.isItem {block : List Message} (h : IsBlock block) : IsItem block := by
  cases h with
  | user hrole => exact .user hrole
  | exchange hrole hids hanswers =>
    exact .exchange hrole hids (hanswers.imp fun m call hm => ⟨hm.1, hm.2.1⟩)

theorem InGoodOrder.isHistory (h : InGoodOrder messages) : IsHistory messages := by
  obtain ⟨system, user, blocks, hmessages, hsystem, huser, hblocks⟩ := h
  exact ⟨system, user, blocks, hmessages, hsystem, huser, fun b hb => (hblocks b hb).isItem⟩

theorem IsHistory.append {item : List Message} (h : IsHistory messages) (hitem : IsItem item) :
    IsHistory (messages ++ item) := by
  obtain ⟨system, user, items, rfl, hsystem, huser, hitems⟩ := h
  refine ⟨system, user, items ++ [item], by simp, hsystem, huser, ?_⟩
  intro other hother
  rcases List.mem_append.1 hother with hother | hother
  · exact hitems other hother
  · rw [List.mem_singleton.1 hother]
    exact hitem

theorem isHistory_pair {system user : Message} (hsystem : system.role = .system)
    (huser : user.role = .user) : IsHistory [system, user] :=
  ⟨system, user, [], rfl, hsystem, huser, by simp⟩

/-- A history is complete once the open calls have their results. -/
theorem Leaves.isHistory_append (h : Leaves messages calls)
    (hgiven : List.Forall₂ Message.Resolves given calls) : IsHistory (messages ++ given) := by
  cases h with
  | settled h =>
    cases hgiven
    rwa [List.append_nil]
  | @awaiting messages given' m answered _ h hrole hids hcalls hgiven' =>
    have hall : List.Forall₂ Message.Resolves (given' ++ given) m.toolCalls := by
      rw [hcalls]
      exact List.rel_append hgiven' hgiven
    rw [List.append_assoc, List.cons_append]
    exact h.append (.exchange hrole hids hall)

theorem leaves_nil_iff : Leaves messages [] ↔ IsHistory messages :=
  ⟨fun h => by simpa using h.isHistory_append .nil, .settled⟩

theorem Leaves.continuable (h : Leaves messages calls) : Continuable messages := by
  refine ⟨Transcript.answers (fun _ => default) "" 0 calls, h.isHistory_append ?_⟩
  exact (Transcript.forall₂_answers 0).imp fun m call hm => ⟨hm.1, hm.2.1⟩

theorem continuable_nil : Continuable [] :=
  ⟨[.system default "", .user default ""], isHistory_pair rfl rfl⟩

theorem continuable_system {system : Message} (h : system.role = .system) : Continuable [system] :=
  ⟨[.user default ""], isHistory_pair h rfl⟩

/-! ## What does not fit -/

/-- Why a message cannot be the next one where these calls wait for their results. -/
inductive Misplaced (calls : List ToolCall) (m : Message) : TranscriptError → Prop where
  | system (hrole : m.role = .system) : Misplaced calls m .duplicateSystem
  /-- Nobody speaks before the calls have their results. -/
  | unanswered {call : ToolCall} {rest : List ToolCall} (hcalls : calls = call :: rest)
      (hrole : m.role = .user ∨ m.role = .assistant) : Misplaced calls m (.unansweredCall call.id)
  /-- The ids before this one are different, and it is one of them. -/
  | repeated {first rest : List String} {id : String} (hcalls : calls = [])
      (hrole : m.role = .assistant) (hids : m.toolCalls.map ToolCall.id = first ++ id :: rest)
      (hfirst : first.Nodup) (hmem : id ∈ first) : Misplaced calls m (.duplicateCallId id)
  | unnamed (hrole : m.role = .tool) (hid : m.toolCallId = none) : Misplaced calls m .missingCallId
  | unknown {id : String} (hrole : m.role = .tool) (hid : m.toolCallId = some id)
      (hmem : id ∉ calls.map ToolCall.id) : Misplaced calls m (.unknownCallId id)
  | early {call : ToolCall} {rest : List ToolCall} {id : String} (hcalls : calls = call :: rest)
      (hrole : m.role = .tool) (hid : m.toolCallId = some id) (hne : call.id ≠ id)
      (hmem : id ∈ rest.map ToolCall.id) : Misplaced calls m (.outOfOrder call.id id)

/-- Why a message cannot follow these messages. -/
inductive Misfit (before : List Message) (m : Message) : TranscriptError → Prop where
  | first (hbefore : before = []) (hrole : m.role ≠ .system) : Misfit before m .missingSystem
  | second {system : Message} (hbefore : before = [system]) (hrole : m.role ≠ .user) :
      Misfit before m .missingInitialUser
  | later {calls : List ToolCall} {e : TranscriptError} (hleaves : Leaves before calls)
      (hmisplaced : Misplaced calls m e) : Misfit before m e

/-- Why messages cannot end where they do. -/
inductive Unfinished (messages : List Message) : TranscriptError → Prop where
  | nothing (hmessages : messages = []) : Unfinished messages .missingSystem
  | system {system : Message} (hmessages : messages = [system]) :
      Unfinished messages .missingInitialUser
  | awaiting {call : ToolCall} {rest : List ToolCall} (hleaves : Leaves messages (call :: rest)) :
      Unfinished messages (.unansweredCall call.id)

/-- The search for a repeated id finds the first one that is among the ids before it, or among
those seen earlier. -/
theorem firstRepeated?_eq_some_iff {seen ids : List String} {id : String} :
    firstRepeated? seen ids = some id ↔
      ∃ first rest, ids = first ++ id :: rest ∧ first.Nodup ∧ (∀ other ∈ first, other ∉ seen) ∧
        (id ∈ first ∨ id ∈ seen) := by
  induction ids generalizing seen with
  | nil => simp [firstRepeated?]
  | cons head ids ih =>
    rw [firstRepeated?]
    split
    · next hseen =>
      constructor
      · rintro ⟨⟩
        exact ⟨[], ids, rfl, .nil, by simp, .inr hseen⟩
      · rintro ⟨_ | ⟨other, first⟩, rest, hids, -, hfresh, -⟩
        · rw [(List.cons.inj hids).1]
        · exact absurd ((List.cons.inj hids).1 ▸ hseen) (hfresh other List.mem_cons_self)
    · next hseen =>
      rw [ih]
      constructor
      · rintro ⟨first, rest, rfl, hnodup, hfresh, hid⟩
        simp only [List.mem_cons, not_or] at hfresh hid
        refine ⟨head :: first, rest, rfl, List.nodup_cons.2 ⟨fun hmem => (hfresh _ hmem).1 rfl,
          hnodup⟩, ?_, ?_⟩
        · rintro other (_ | ⟨_, hother⟩)
          · exact hseen
          · exact (hfresh other hother).2
        · rcases hid with hid | rfl | hid
          · exact .inl (List.mem_cons_of_mem _ hid)
          · exact .inl List.mem_cons_self
          · exact .inr hid
      · rintro ⟨_ | ⟨other, first⟩, rest, hids, hnodup, hfresh, hid⟩
        · obtain ⟨rfl, rfl⟩ := List.cons.inj hids
          exact absurd (hid.resolve_left (by simp)) hseen
        · obtain ⟨rfl, rfl⟩ := List.cons.inj hids
          obtain ⟨hhead, hnodup⟩ := List.nodup_cons.1 hnodup
          refine ⟨first, rest, rfl, hnodup, ?_, ?_⟩
          · intro other hother
            simp only [List.mem_cons, not_or]
            exact ⟨fun h => hhead (h ▸ hother), hfresh other (List.mem_cons_of_mem _ hother)⟩
          · simp only [List.mem_cons] at hid ⊢
            tauto

namespace Transcript

variable {stamps : Stamps} {t t' : Transcript}

/-! ## One message -/

theorem pushUser_eq_error_iff {content : String} :
    t.pushUser stamps content = .error e ↔
      ∃ call rest, t.pending = call :: rest ∧ e = .unansweredCall call.id := by
  rw [pushUser]
  split <;> next hpending => simp [hpending, eq_comm]

theorem pushAssistant_eq_error_iff (hrole : m.role = .assistant) :
    t.pushAssistant m = .error e ↔
      (∃ call rest, t.pending = call :: rest ∧ e = .unansweredCall call.id) ∨
        t.pending = [] ∧ ∃ first id rest, m.toolCalls.map ToolCall.id = first ++ id :: rest ∧
          first.Nodup ∧ id ∈ first ∧ e = .duplicateCallId id := by
  rw [pushAssistant, if_neg (not_not.2 hrole)]
  split
  · next hpending => simp [hpending, eq_comm]
  · next hpending =>
    have hsearch : ∀ id, firstRepeated? [] (m.toolCalls.map ToolCall.id) = some id ↔
        ∃ first rest, m.toolCalls.map ToolCall.id = first ++ id :: rest ∧ first.Nodup ∧
          id ∈ first := by
      intro id
      simp [firstRepeated?_eq_some_iff]
    split
    · next id hrepeated =>
      constructor
      · rintro ⟨⟩
        obtain ⟨first, rest, hids, hfirst, hmem⟩ := (hsearch id).1 hrepeated
        exact .inr ⟨hpending, first, id, rest, hids, hfirst, hmem, rfl⟩
      · rintro (⟨call, rest, hcalls, -⟩ | ⟨-, first, other, rest, hids, hfirst, hmem, rfl⟩)
        · cases hpending.symm.trans hcalls
        · rw [(hsearch other).2 ⟨first, rest, hids, hfirst, hmem⟩] at hrepeated
          cases hrepeated
          rfl
    · next hrepeated =>
      constructor
      · rintro ⟨⟩
      · rintro (⟨call, rest, hcalls, -⟩ | ⟨-, first, other, rest, hids, hfirst, hmem, -⟩)
        · cases hpending.symm.trans hcalls
        · rw [(hsearch other).2 ⟨first, rest, hids, hfirst, hmem⟩] at hrepeated
          cases hrepeated

theorem pushToolResult_eq_error_iff {id content : String} :
    t.pushToolResult stamps id content = .error e ↔
      id ∉ t.pending.map ToolCall.id ∧ e = .unknownCallId id ∨
        ∃ call rest, t.pending = call :: rest ∧ call.id ≠ id ∧ id ∈ rest.map ToolCall.id ∧
          e = .outOfOrder call.id id := by
  rw [pushToolResult]
  split
  · next hpending => simp [hpending, eq_comm]
  · next call calls hpending =>
    split
    · next hid => simp [hpending, hid]
    · next hid =>
      have hne : id ≠ call.id := fun h => hid h.symm
      split
      · next hmem => simp [-List.mem_map, hpending, hne, hmem, eq_comm]
      · next hmem => simp [-List.mem_map, hpending, hne, hmem, eq_comm]

/-- A message is refused exactly if it does not fit where the calls wait that the reader
remembers. -/
theorem take_eq_error_iff : t.take stamps m = .error e ↔ Misplaced t.pending m e := by
  rw [take]
  split
  · next hrole =>
    constructor
    · rintro ⟨⟩
      exact .system hrole
    · intro h
      cases h <;> simp_all
  · next hrole =>
    rw [pushUser_eq_error_iff]
    constructor
    · rintro ⟨call, rest, hcalls, rfl⟩
      exact .unanswered hcalls (.inl hrole)
    · intro h
      cases h <;> simp_all
  · next hrole =>
    rw [pushAssistant_eq_error_iff hrole]
    constructor
    · rintro (⟨call, rest, hcalls, rfl⟩ | ⟨hcalls, first, id, rest, hids, hfirst, hmem, rfl⟩)
      · exact .unanswered hcalls (.inr hrole)
      · exact .repeated hcalls hrole hids hfirst hmem
    · intro h
      cases h with
      | unanswered hcalls => exact .inl ⟨_, _, hcalls, rfl⟩
      | repeated hcalls _ hids hfirst hmem => exact .inr ⟨hcalls, _, _, _, hids, hfirst, hmem, rfl⟩
      | _ => simp_all
  · next hrole =>
    split
    · next hid =>
      constructor
      · rintro ⟨⟩
        exact .unnamed hrole hid
      · intro h
        cases h <;> simp_all
    · next id hid =>
      rw [pushToolResult_eq_error_iff]
      constructor
      · rintro (⟨hmem, rfl⟩ | ⟨call, rest, hcalls, hne, hmem, rfl⟩)
        · exact .unknown hrole hid hmem
        · exact .early hcalls hrole hid hne hmem
      · intro h
        cases h with
        | unknown _ hid' hmem =>
          obtain rfl := Option.some.inj (hid.symm.trans hid')
          exact .inl ⟨hmem, rfl⟩
        | early hcalls _ hid' hne hmem =>
          obtain rfl := Option.some.inj (hid.symm.trans hid')
          exact .inr ⟨_, _, hcalls, hne, hmem, rfl⟩
        | _ => simp_all

/-- A message that is taken over leaves the calls that the reader then remembers. -/
theorem leaves_take (h : Leaves before t.pending) (htake : t.take stamps m = .ok t') :
    Leaves (before ++ [m]) t'.pending := by
  rw [take] at htake
  split at htake
  · cases htake
  · next hrole =>
    obtain ⟨hpending, rfl⟩ := pushUser_eq_ok_iff.1 htake
    rw [hpending, leaves_nil_iff] at h
    exact .settled (h.append (.user hrole))
  · obtain ⟨hrole, hpending, hids, rfl⟩ := pushAssistant_eq_ok_iff.1 htake
    rw [hpending, leaves_nil_iff] at h
    exact .awaiting h hrole hids (List.nil_append _).symm .nil
  · next hrole =>
    split at htake
    · cases htake
    · next id hid =>
      obtain ⟨call, calls, hpending, rfl, rfl⟩ := pushToolResult_eq_ok_iff.1 htake
      generalize hcalls : t.pending = pending at h
      cases h with
      | settled => cases hpending.symm.trans hcalls
      | @awaiting messages given asked answered _ h hasked hids hissued hgiven =>
        have hissued' : asked.toolCalls = (answered ++ [call]) ++ calls := by
          rw [hissued, ← hcalls, hpending, List.append_assoc, List.singleton_append]
        have hgiven' : List.Forall₂ Message.Resolves (given ++ [m]) (answered ++ [call]) :=
          List.rel_append hgiven (.cons ⟨hrole, hid⟩ .nil)
        rw [List.append_assoc, List.cons_append]
        exact .awaiting h hasked hids hissued' hgiven'

/-! ## All messages -/

theorem takeAll_append {first second : List Message} (h : t.takeAll stamps first = .ok t') :
    t.takeAll stamps (first ++ second) = t'.takeAll stamps second := by
  induction first generalizing t with
  | nil =>
    cases h
    rfl
  | cons m first ih =>
    rw [takeAll] at h
    split at h
    · cases h
    · next t'' hm =>
      rw [List.cons_append, takeAll, hm]
      exact ih h

/-- The reader goes on with more messages from where it stands. -/
theorem TakenOver.append {more : List Message} (h : TakenOver stamps before t)
    (hmore : t.takeAll stamps more = .ok t') : TakenOver stamps (before ++ more) t' := by
  obtain ⟨system, user, rest, rfl, hsystem, huser, hrest⟩ := h
  exact ⟨system, user, rest ++ more, rfl, hsystem, huser, by rw [takeAll_append hrest, hmore]⟩

theorem TakenOver.unique (h : TakenOver stamps messages t) (h' : TakenOver stamps messages t') :
    t = t' := by
  obtain ⟨system, user, rest, rfl, -, -, hrest⟩ := h
  obtain ⟨_, _, _, ⟨⟩, -, -, hrest'⟩ := h'
  exact Except.ok.inj (hrest.symm.trans hrest')

/-- The reader stops at the first message that is refused. -/
theorem takeAll_eq_error_iff :
    t.takeAll stamps messages = .error e ↔
      ∃ before m after next, messages = before ++ m :: after ∧
        t.takeAll stamps before = .ok next ∧ next.take stamps m = .error e := by
  induction messages generalizing t with
  | nil => simp [takeAll]
  | cons head messages ih =>
    rw [takeAll]
    cases hhead : t.take stamps head with
    | error e' =>
      constructor
      · rintro ⟨⟩
        exact ⟨[], head, messages, t, rfl, rfl, hhead⟩
      · rintro ⟨_ | ⟨other, before⟩, m, after, next, hmessages, hbefore, hm⟩
        · obtain ⟨rfl, rfl⟩ := List.cons.inj hmessages
          cases hbefore
          exact hhead.symm.trans hm
        · obtain ⟨rfl, rfl⟩ := List.cons.inj hmessages
          obtain ⟨next', hother, -⟩ := takeAll_cons_eq_ok_iff.1 hbefore
          cases hhead.symm.trans hother
    | ok t'' =>
      simp only [ih]
      constructor
      · rintro ⟨before, m, after, next, rfl, hbefore, hm⟩
        exact ⟨head :: before, m, after, next, rfl,
          takeAll_cons_eq_ok_iff.2 ⟨t'', hhead, hbefore⟩, hm⟩
      · rintro ⟨_ | ⟨other, before⟩, m, after, next, hmessages, hbefore, hm⟩
        · obtain ⟨rfl, rfl⟩ := List.cons.inj hmessages
          cases hbefore
          cases hhead.symm.trans hm
        · obtain ⟨rfl, rfl⟩ := List.cons.inj hmessages
          obtain ⟨next', hother, hrest⟩ := takeAll_cons_eq_ok_iff.1 hbefore
          obtain rfl := Except.ok.inj (hhead.symm.trans hother)
          exact ⟨before, m, after, next, rfl, hrest, hm⟩

/-- Results of the first open calls are taken over, and the other calls stay open. -/
theorem exists_takeAll_results {answered : List ToolCall}
    (hgiven : List.Forall₂ Message.Resolves given answered)
    (hpending : t.pending = answered ++ calls) :
    ∃ t', t.takeAll stamps given = .ok t' ∧ t'.pending = calls := by
  induction hgiven generalizing t with
  | nil => exact ⟨t, rfl, hpending⟩
  | @cons m call given answered hm _ ih =>
    have htake : t.take stamps m =
        .ok ⟨t.messages ++ [.toolResult (stamps t.length) call m.content], answered ++ calls⟩ := by
      rw [take, hm.1, hm.2]
      exact pushToolResult_of_pending hpending
    obtain ⟨t', hgiven, hcalls⟩ := ih (t := ⟨_, answered ++ calls⟩) rfl
    exact ⟨t', takeAll_cons_eq_ok_iff.2 ⟨_, htake, hgiven⟩, hcalls⟩

/-- A message of the assistant with results of its first calls is taken over when no call is open,
and leaves the other calls open. -/
theorem exists_takeAll_exchange {answered : List ToolCall} (hpending : t.pending = [])
    (hrole : m.role = .assistant) (hids : (m.toolCalls.map ToolCall.id).Nodup)
    (hcalls : m.toolCalls = answered ++ calls)
    (hgiven : List.Forall₂ Message.Resolves given answered) :
    ∃ t', t.takeAll stamps (m :: given) = .ok t' ∧ t'.pending = calls := by
  have htake : t.take stamps m = .ok ⟨t.messages ++ [m], m.toolCalls⟩ := by
    rw [take, hrole]
    exact pushAssistant_eq_ok_iff.2 ⟨hrole, hpending, hids, rfl⟩
  obtain ⟨t', hgiven, ht'⟩ :=
    exists_takeAll_results (t := ⟨t.messages ++ [m], m.toolCalls⟩) hgiven hcalls
  exact ⟨t', takeAll_cons_eq_ok_iff.2 ⟨_, htake, hgiven⟩, ht'⟩

/-- An item is taken over when no call is open, and leaves no call open. -/
theorem exists_takeAll_item {item : List Message} (hpending : t.pending = [])
    (hitem : IsItem item) : ∃ t', t.takeAll stamps item = .ok t' ∧ t'.pending = [] := by
  cases hitem with
  | @user m hrole =>
    have htake : t.take stamps m =
        .ok ⟨t.messages ++ [.user (stamps t.length) m.content], []⟩ := by
      rw [take, hrole]
      exact pushUser_eq_ok_iff.2 ⟨hpending, rfl⟩
    exact ⟨_, takeAll_cons_eq_ok_iff.2 ⟨_, htake, rfl⟩, rfl⟩
  | exchange hrole hids hgiven =>
    exact exists_takeAll_exchange hpending hrole hids (List.append_nil _).symm hgiven

theorem exists_takeAll_items {items : List (List Message)} (hpending : t.pending = [])
    (hitems : ∀ item ∈ items, IsItem item) :
    ∃ t', t.takeAll stamps items.flatten = .ok t' ∧ t'.pending = [] := by
  induction items generalizing t with
  | nil => exact ⟨t, rfl, hpending⟩
  | cons item items ih =>
    obtain ⟨t', htake, hpending'⟩ := exists_takeAll_item hpending (hitems item List.mem_cons_self)
    rw [List.flatten_cons, takeAll_append htake]
    exact ih hpending' fun other hother => hitems other (List.mem_cons_of_mem _ hother)

theorem leaves_takeAll (h : Leaves before t.pending)
    (htake : t.takeAll stamps messages = .ok t') : Leaves (before ++ messages) t'.pending := by
  induction messages generalizing before t with
  | nil =>
    cases htake
    rwa [List.append_nil]
  | cons m messages ih =>
    obtain ⟨next, hm, hrest⟩ := takeAll_cons_eq_ok_iff.1 htake
    have hall := ih (leaves_take h hm) hrest
    rwa [List.append_assoc, List.singleton_append] at hall

theorem TakenOver.leaves (h : TakenOver stamps messages t) : Leaves messages t.pending := by
  obtain ⟨system, user, rest, rfl, hsystem, huser, hrest⟩ := h
  have hopening : Leaves [system, user] [] := .settled (isHistory_pair hsystem huser)
  exact leaves_takeAll (t := ⟨[system, user], []⟩) hopening hrest

/-- What is taken over was taken over up to any point before. -/
theorem exists_takeAll_of_append {after : List Message}
    (h : t.takeAll stamps (before ++ after) = .ok t') :
    ∃ next, t.takeAll stamps before = .ok next := by
  induction before generalizing t with
  | nil => exact ⟨t, rfl⟩
  | cons m before ih =>
    obtain ⟨next, hm, hrest⟩ := takeAll_cons_eq_ok_iff.1 h
    obtain ⟨last, hbefore⟩ := ih hrest
    exact ⟨last, takeAll_cons_eq_ok_iff.2 ⟨next, hm, hbefore⟩⟩

end Transcript

open Transcript (TakenOver)

/-- The reader gets through a history, and then remembers no call. -/
theorem IsHistory.exists_takenOver (stamps : Stamps) (h : IsHistory messages) :
    ∃ t, TakenOver stamps messages t ∧ t.pending = [] := by
  obtain ⟨system, user, items, rfl, hsystem, huser, hitems⟩ := h
  obtain ⟨t, htake, hpending⟩ :=
    Transcript.exists_takeAll_items (t := ⟨[system, user], []⟩) rfl hitems
  exact ⟨t, ⟨system, user, _, rfl, hsystem, huser, htake⟩, hpending⟩

theorem Leaves.exists_takenOver (stamps : Stamps) (h : Leaves messages calls) :
    ∃ t, TakenOver stamps messages t ∧ t.pending = calls := by
  cases h with
  | settled h => exact h.exists_takenOver stamps
  | awaiting h hrole hids hcalls hgiven =>
    obtain ⟨t, ht, hpending⟩ := h.exists_takenOver stamps
    obtain ⟨t', htake, hcalls⟩ :=
      Transcript.exists_takeAll_exchange hpending hrole hids hcalls hgiven
    exact ⟨t', ht.append htake, hcalls⟩

/-- The reader gets through the messages exactly when they leave the calls that it remembers. -/
theorem takenOver_iff_leaves (stamps : Stamps) :
    (∃ t, TakenOver stamps messages t ∧ t.pending = calls) ↔ Leaves messages calls := by
  refine ⟨?_, Leaves.exists_takenOver stamps⟩
  rintro ⟨t, ht, rfl⟩
  exact ht.leaves

/-- The calls without a result can be told from the messages in only one way. -/
theorem Leaves.unique (h : Leaves messages calls) (h' : Leaves messages calls') :
    calls = calls' := by
  obtain ⟨t, ht, rfl⟩ := h.exists_takenOver fun _ => default
  obtain ⟨t', ht', rfl⟩ := h'.exists_takenOver fun _ => default
  rw [ht.unique ht']

/-- Messages can be the first ones of a history if they leave some calls, or are too few to say. -/
theorem continuable_iff :
    Continuable messages ↔
      messages = [] ∨ (∃ system, messages = [system] ∧ system.role = .system) ∨
        ∃ calls, Leaves messages calls := by
  constructor
  · rintro ⟨rest, h⟩
    obtain ⟨t, ⟨system, user, more, hmessages, hsystem, huser, hmore⟩, -⟩ :=
      h.exists_takenOver fun _ => default
    match messages with
    | [] => exact .inl rfl
    | [_] =>
      cases hmessages
      exact .inr (.inl ⟨system, rfl, hsystem⟩)
    | _ :: _ :: messages =>
      cases hmessages
      obtain ⟨t', ht'⟩ := Transcript.exists_takeAll_of_append hmore
      have htaken : TakenOver (fun _ => default) (system :: user :: messages) t' :=
        ⟨system, user, messages, rfl, hsystem, huser, ht'⟩
      exact .inr (.inr ⟨t'.pending, htaken.leaves⟩)
  · rintro (rfl | ⟨system, rfl, hsystem⟩ | ⟨calls, h⟩)
    · exact continuable_nil
    · exact continuable_system hsystem
    · exact h.continuable

namespace Transcript

variable {stamps : Stamps} {t t' : Transcript}

/-! ## Taking over -/

theorem exists_adopt_iff_isHistory (stamps : Stamps) :
    (∃ t, adopt stamps messages = .ok t) ↔ IsHistory messages := by
  simp only [adopt_eq_ok_iff]
  rw [takenOver_iff_leaves, leaves_nil_iff]

/-- Every conversation in good order can be taken over. -/
theorem exists_adopt_of_inGoodOrder (stamps : Stamps) (h : InGoodOrder messages) :
    ∃ t, adopt stamps messages = .ok t :=
  (exists_adopt_iff_isHistory stamps).2 h.isHistory

/-- Behind a system message and a user message the reader stops at the first message that is
refused, or at the end if a call is open there. -/
theorem adopt_eq_error_of_roles {system user : Message} (hsystem : system.role = .system)
    (huser : user.role = .user) (h : adopt stamps (system :: user :: messages) = .error e) :
    takeAll stamps ⟨[system, user], []⟩ messages = .error e ∨
      ∃ t call calls, takeAll stamps ⟨[system, user], []⟩ messages = .ok t ∧
        t.pending = call :: calls ∧ e = .unansweredCall call.id := by
  cases htake : takeAll stamps ⟨[system, user], []⟩ messages with
  | error e' =>
    simp [adopt, hsystem, huser, htake] at h
    exact .inl (congrArg _ h)
  | ok t =>
    cases hpending : t.pending with
    | nil => simp [adopt, hsystem, huser, htake, hpending] at h
    | cons call calls =>
      simp [adopt, hsystem, huser, htake, hpending] at h
      exact .inr ⟨t, call, calls, rfl, hpending, h.symm⟩

/-- The error for messages that are refused is that of a message that does not fit behind those
before it, or that of an end where they cannot end. -/
theorem faulty_of_adopt (h : adopt stamps messages = .error e) :
    (∃ before m after, messages = before ++ m :: after ∧ Continuable before ∧ Misfit before m e) ∨
      Continuable messages ∧ Unfinished messages e := by
  cases messages with
  | nil =>
    cases h
    exact .inr ⟨continuable_nil, .nothing rfl⟩
  | cons system rest =>
    by_cases hsystem : system.role = .system
    swap
    · simp only [adopt, ne_eq, hsystem, not_false_eq_true, if_true] at h
      cases h
      exact .inl ⟨[], system, rest, rfl, continuable_nil, .first rfl hsystem⟩
    cases rest with
    | nil =>
      simp only [adopt, ne_eq, hsystem, not_true_eq_false, if_false] at h
      cases h
      exact .inr ⟨continuable_system hsystem, .system rfl⟩
    | cons user rest =>
      by_cases huser : user.role = .user
      swap
      · simp only [adopt, ne_eq, hsystem, huser, not_true_eq_false, not_false_eq_true, if_false,
          if_true] at h
        cases h
        exact .inl ⟨[system], user, rest, rfl, continuable_system hsystem, .second rfl huser⟩
      rcases adopt_eq_error_of_roles hsystem huser h with
        htake | ⟨t, call, calls, htake, hpending, rfl⟩
      · obtain ⟨before, m, after, next, rfl, hbefore, hm⟩ := takeAll_eq_error_iff.1 htake
        have hleaves : Leaves (system :: user :: before) next.pending :=
          TakenOver.leaves ⟨system, user, before, rfl, hsystem, huser, hbefore⟩
        exact .inl ⟨system :: user :: before, m, after, rfl, hleaves.continuable,
          .later hleaves (take_eq_error_iff.1 hm)⟩
      · have hleaves : Leaves (system :: user :: rest) t.pending :=
          TakenOver.leaves ⟨system, user, rest, rfl, hsystem, huser, htake⟩
        exact .inr ⟨hleaves.continuable, .awaiting (hpending ▸ hleaves)⟩

theorem role_eq_system_of_continuable {system : Message} (h : Continuable (system :: messages)) :
    system.role = .system := by
  obtain ⟨rest, _, user, items, hmessages, hsystem, -⟩ := h
  rwa [(List.cons.inj hmessages).1]

/-- Messages are refused at the first one that does not fit. -/
theorem adopt_of_misfit {after : List Message} (hbefore : Continuable before)
    (h : Misfit before m e) : adopt stamps (before ++ m :: after) = .error e := by
  cases h with
  | first hnil hrole =>
    subst hnil
    simp [adopt, hrole]
  | second hsingle hrole =>
    subst hsingle
    simp [adopt, role_eq_system_of_continuable hbefore, hrole]
  | later hleaves hmisplaced =>
    obtain ⟨t, ⟨system, user, rest, rfl, hsystem, huser, hrest⟩, rfl⟩ :=
      hleaves.exists_takenOver stamps
    have hrefused : takeAll stamps ⟨[system, user], []⟩ (rest ++ m :: after) = .error e :=
      takeAll_eq_error_iff.2 ⟨rest, m, after, t, rfl, hrest, take_eq_error_iff.2 hmisplaced⟩
    simp [adopt, hsystem, huser, hrefused]

/-- Messages are refused at their end if they cannot end there. -/
theorem adopt_of_unfinished (hmessages : Continuable messages) (h : Unfinished messages e) :
    adopt stamps messages = .error e := by
  cases h with
  | nothing hnil =>
    subst hnil
    rfl
  | system hsingle =>
    subst hsingle
    simp [adopt, role_eq_system_of_continuable hmessages]
  | awaiting hleaves =>
    obtain ⟨t, ⟨system, user, rest, rfl, hsystem, huser, hrest⟩, hpending⟩ :=
      hleaves.exists_takenOver stamps
    simp [adopt, hsystem, huser, hrest, hpending]

/-- A message that does not fit cannot be followed by anything. -/
theorem not_continuable_of_misfit (hbefore : Continuable before) (h : Misfit before m e) :
    ¬ Continuable (before ++ [m]) := by
  rintro ⟨rest, hhistory⟩
  rw [List.append_assoc, List.singleton_append] at hhistory
  obtain ⟨t, ht⟩ := (exists_adopt_iff_isHistory fun _ => default).2 hhistory
  cases ht.symm.trans (adopt_of_misfit hbefore h)

/-- Exactly the histories are taken over.  Other messages are refused with the error of the first
one that cannot follow those before it; and if all of them can be the first ones of a history, with
the error of their end. -/
theorem adopt_classifies (stamps : Stamps) (messages : List Message) :
    ((∃ t, adopt stamps messages = .ok t) ↔ IsHistory messages) ∧
      ∀ e, adopt stamps messages = .error e ↔
        (∃ before m after, messages = before ++ m :: after ∧ Continuable before ∧
            ¬ Continuable (before ++ [m]) ∧ Misfit before m e) ∨
          Continuable messages ∧ Unfinished messages e := by
  refine ⟨exists_adopt_iff_isHistory stamps, fun e => ⟨fun h => ?_, ?_⟩⟩
  · rcases faulty_of_adopt h with ⟨before, m, after, hmessages, hbefore, hmisfit⟩ | hend
    · exact .inl ⟨before, m, after, hmessages, hbefore, not_continuable_of_misfit hbefore hmisfit,
        hmisfit⟩
    · exact .inr hend
  · rintro (⟨before, m, after, rfl, hbefore, -, hmisfit⟩ | ⟨hmessages, hunfinished⟩)
    · exact adopt_of_misfit hbefore hmisfit
    · exact adopt_of_unfinished hmessages hunfinished

end Transcript

end AgentLoop
