import AgentLoop.Proofs.Turns

/-!
# Where in a run something happens

A statement about the point at which something happens in a run needs all that came before it, and
that is where its entry stands in the journal.  This module leads from a place in the journal back
to the stride that wrote it.

* `run_of_strides` is the induction for what holds of a journal piece by piece.
* `exists_stride_of_split` finds the stride that wrote an entry which is not of the frame of the
  run, and `Reaches.isPrefix_of_split` says that what comes after it begins with the rest of the
  stride.
* `exists_turn_of_asked` is about a request to the model: it was made at the beginning of a turn,
  after the iteration budget allowed it and before anything else passed in that turn.
-/

namespace AgentLoop

/-- What stands in a list that was put together stands in one of its two parts. -/
theorem exists_split_of_append {α : Type} {front back before after : List α} {a : α}
    (h : front ++ back = before ++ a :: after) :
    (∃ later, front = before ++ a :: later) ∨
      ∃ earlier, before = front ++ earlier ∧ back = earlier ++ a :: after := by
  rcases List.append_eq_append_iff.1 h with ⟨earlier, hbefore, hback⟩ | ⟨rest, hfront, hrest⟩
  · exact .inr ⟨earlier, hbefore, hback⟩
  · rcases List.cons_eq_append_iff.1 hrest with ⟨rfl, hback⟩ | ⟨later, rfl, -⟩
    · exact .inr ⟨[], by simpa using hfront.symm, hback⟩
    · exact .inl ⟨later, hfront⟩

/-- The event frames a run: the tracer is told that it begins or ends, or it is a remark. -/
def Event.isFrame : Event → Bool
  | traced (.start ..) | traced (.finish ..) | remarked _ => true
  | _ => false

/-- A reading finds nothing among events that frame a run if it skips each of their kinds. -/
theorem Journal.pick_of_isFrame {α : Type} {f : Event → Option α} {j : Journal}
    (hstart : ∀ id invocation, f (.traced (.start id invocation)) = none)
    (hfinish : ∀ id outcome, f (.traced (.finish id outcome)) = none)
    (hremarked : ∀ remark, f (.remarked remark) = none)
    (h : ∀ e ∈ j, e.event.isFrame = true) : j.pick f = [] := by
  rw [pick, List.filterMap_eq_nil_iff]
  intro e he
  have hframe := h e he
  revert hframe
  cases e.event with
  | traced event =>
    cases event with
    | start id invocation => exact fun _ => hstart id invocation
    | finish id outcome => exact fun _ => hfinish id outcome
    | _ =>
      intro hframe
      cases hframe
  | remarked remark => exact fun _ => hremarked remark
  | _ =>
    intro hframe
    cases hframe

namespace Controller

variable {M G B X : Type} {c : Controller M G B X} {inv : Invocation} {w : World M G B X}
  {phase : Phase} {past : Journal} {s : Stand M G B X}

/-! ## Piece by piece -/

theorem isFrame_of_mem_opening {t : Transcript} {e : Entry} (h : e ∈ c.opening inv w t) :
    e.event.isFrame = true := by
  simp only [opening, List.mem_cons, List.not_mem_nil, or_false] at h
  rcases h with rfl | rfl <;> rfl

theorem isFrame_of_mem_farewell {flow : Flow} {e : Entry} (h : e ∈ farewell inv s flow) :
    e.event.isFrame = true := by
  rw [farewell] at h
  split at h
  · cases h
  · simp only [Stand.entry, List.mem_cons, List.not_mem_nil, or_false] at h
    rcases h with rfl | rfl <;> rfl

/-- What holds of the frame of a run, and of what every stride writes, holds up to every point of a
run, if it is kept when journals are put together. -/
theorem past_of_strides {P : Journal → Prop}
    (hframe : ∀ j : Journal, (∀ e ∈ j, e.event.isFrame = true) → P j)
    (happend : ∀ j k, P j → P k → P (j ++ k))
    (hstride : ∀ phase s, s.state.transcript.pending = phase.open →
      P (c.stride inv phase s).1.journal)
    (h : c.Reaches inv w phase past s) : P past := by
  induction h with
  | begin hadopt => exact hframe _ fun e he => isFrame_of_mem_opening he
  | stride hpast hflow ih => exact happend _ _ ih (hstride _ _ (awaits_of_reaches hpast).pending)

/-- The same for the journal of a whole run. -/
theorem run_of_strides {P : Journal → Prop}
    (hframe : ∀ j : Journal, (∀ e ∈ j, e.event.isFrame = true) → P j)
    (happend : ∀ j k, P j → P k → P (j ++ k))
    (hstride : ∀ phase s, s.state.transcript.pending = phase.open →
      P (c.stride inv phase s).1.journal) : P (c.run inv w).journal := by
  rcases c.run_cases inv w with ⟨error, -, hrun⟩ | ⟨journal, s, flow, hends, hrun⟩
  · rw [hrun]
    exact hframe [] (by simp)
  · obtain @⟨phase, past, s, hpast, hflow⟩ := hends
    rw [hrun]
    refine happend _ _ (happend _ _ (past_of_strides hframe happend hstride hpast) ?_) ?_
    · exact hstride _ _ (awaits_of_reaches hpast).pending
    · exact hframe _ fun e he => isFrame_of_mem_farewell he

/-! ## From a place to a stride -/

variable {before after : Journal} {e : Entry}

theorem exists_stride_of_past (h : c.Reaches inv w phase past s) (hevent : e.event.isFrame = false)
    (hsplit : past = before ++ e :: after) :
    ∃ phase' past' s' front back, c.Reaches inv w phase' past' s' ∧ before = past' ++ front ∧
      (c.stride inv phase' s').1.journal = front ++ e :: back := by
  induction h generalizing before after with
  | @begin t hadopt =>
    have hmem : e ∈ c.opening inv w t := hsplit ▸ List.mem_append_right _ List.mem_cons_self
    cases (isFrame_of_mem_opening hmem).symm.trans hevent
  | stride hpast hflow ih =>
    rcases exists_split_of_append hsplit with ⟨later, hpast'⟩ | ⟨front, hbefore, hstride⟩
    · exact ih hpast'
    · exact ⟨_, _, _, front, after, hpast, hbefore, hstride⟩

/-- What a run does between its beginning and its end, it does in one of its strides. -/
theorem exists_stride_of_split (hevent : e.event.isFrame = false)
    (hsplit : (c.run inv w).journal = before ++ e :: after) :
    ∃ phase past s front back, c.Reaches inv w phase past s ∧ before = past ++ front ∧
      (c.stride inv phase s).1.journal = front ++ e :: back := by
  rcases c.run_cases inv w with ⟨error, -, hrun⟩ | ⟨journal, s, flow, hends, hrun⟩
  · rw [hrun] at hsplit
    simp at hsplit
  · obtain @⟨phase, past, s, hpast, hflow⟩ := hends
    rw [hrun, reportOf] at hsplit
    rcases exists_split_of_append hsplit with ⟨later, hjournal⟩ | ⟨front, -, hfarewell⟩
    · rcases exists_split_of_append hjournal with ⟨later, hpast'⟩ | ⟨front, hbefore, hstride⟩
      · exact exists_stride_of_past hpast hevent hpast'
      · exact ⟨phase, past, s, front, later, hpast, hbefore, hstride⟩
    · have hmem : e ∈ farewell inv (c.stride inv phase s).1.stand (c.stride inv phase s).1.flow :=
        hfarewell ▸ List.mem_append_right _ List.mem_cons_self
      cases (isFrame_of_mem_farewell hmem).symm.trans hevent

/-- What comes after an entry in its stride comes after it in the run. -/
theorem Reaches.isPrefix_of_split {front back : Journal} (h : c.Reaches inv w phase past s)
    (hsplit : (c.run inv w).journal = past ++ front ++ e :: after)
    (hstride : (c.stride inv phase s).1.journal = front ++ e :: back) : back <+: after := by
  have hrun := h.isPrefix_run
  rw [hstride, hsplit, List.append_assoc, List.prefix_append_right_inj,
    List.prefix_append_right_inj, List.cons_prefix_cons] at hrun
  exact hrun.2

/-! ## Requests -/

/-- The model is asked at one place in the stride that begins a turn. -/
theorem asked_of_split {front back : Journal} {time : Nat} {request : ModelRequest}
    (hsplit : (c.stride inv .turn s).1.journal = front ++ ⟨time, .asked request⟩ :: back) :
    front = c.turnEntries inv s ++ [callingEntry s] ∧
      c.askedEntry inv s = ⟨time, .asked request⟩ ∧
      (c.budget.checkIteration s.world.now s.world.budget).1 = .allowed ∧
      inv.cancel.fired (c.asking s).world.now = false := by
  have hunasked : ⟨time, .asked request⟩ ∉ c.turnEntries inv s ++ [callingEntry s] := by
    simp [turnEntries, callingEntry]
  have hplace : ∀ rest : Journal, ⟨time, .asked request⟩ ∉ rest →
      (c.turnEntries inv s ++ [callingEntry s]) ++ c.askedEntry inv s :: rest =
        front ++ ⟨time, .asked request⟩ :: back →
      front = c.turnEntries inv s ++ [callingEntry s] ∧
        c.askedEntry inv s = ⟨time, .asked request⟩ := by
    intro rest hrest heq
    obtain ⟨hfront, hentry, -⟩ := (List.append_cons_inj_of_notMem hunasked hrest).1 heq
    exact ⟨hfront.symm, hentry⟩
  have hmem : (⟨time, .asked request⟩ : Entry) ∈ (c.stride inv .turn s).1.journal := by
    rw [hsplit]
    exact List.mem_append_right _ List.mem_cons_self
  have hasks := c.asks_askModel inv s
  rw [stride] at hsplit hmem
  generalize c.askModel inv s = asked at hasks hsplit hmem
  cases hasks with
  | blocked => simp [turnEntries] at hmem
  | withdrawn => exact absurd hmem hunasked
  | cancelled hbudget hfired hwait =>
    obtain ⟨hfront, hentry⟩ := hplace [] (by simp) (by simpa using hsplit)
    exact ⟨hfront, hentry, hbudget, hfired⟩
  | stalled hbudget hfired hwait =>
    obtain ⟨hfront, hentry⟩ := hplace [] (by simp) (by simpa using hsplit)
    exact ⟨hfront, hentry, hbudget, hfired⟩
  | failed hbudget hfired hwait hresult =>
    obtain ⟨hfront, hentry⟩ := hplace [] (by simp) (by simpa using hsplit)
    exact ⟨hfront, hentry, hbudget, hfired⟩
  | replied hbudget hfired hwait hresult =>
    obtain ⟨hfront, hentry⟩ := hplace [⟨_, .replied _ _⟩] (by simp) (by simpa using hsplit)
    exact ⟨hfront, hentry, hbudget, hfired⟩

/-- A request to the model is made at the beginning of a turn, once the iteration budget has allowed
it. -/
theorem exists_turn_of_asked {time : Nat} {request : ModelRequest}
    (hsplit : (c.run inv w).journal = before ++ ⟨time, .asked request⟩ :: after) :
    ∃ past s, c.Reaches inv w .turn past s ∧
      before = past ++ (c.turnEntries inv s ++ [callingEntry s]) ∧
      c.askedEntry inv s = ⟨time, .asked request⟩ ∧
      (c.budget.checkIteration s.world.now s.world.budget).1 = .allowed ∧
      inv.cancel.fired (c.asking s).world.now = false := by
  obtain ⟨phase, past, s, front, back, hpast, rfl, hstride⟩ := exists_stride_of_split rfl hsplit
  by_cases hphase : phase = .turn
  · subst hphase
    obtain ⟨rfl, hentry, hbudget, hfired⟩ := asked_of_split hstride
    exact ⟨past, s, hpast, rfl, hentry, hbudget, hfired⟩
  · have hnone := c.requests_stride_eq_nil inv (awaits_of_reaches hpast).pending hphase
    rw [hstride, Journal.requests_eq_pick, Journal.pick_append, Journal.pick_cons] at hnone
    simp [Journal.request?] at hnone

end Controller

end AgentLoop
