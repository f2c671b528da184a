import AgentLoop.Proofs.FailureStreak
import AgentLoop.Proofs.Ledgers
import AgentLoop.Proofs.Turns
import Mathlib.Algebra.Order.BigOperators.Group.List
import Mathlib.Algebra.Order.Ring.Nat

/-!
# The counters of a run fit into words

A run counts with numbers that have no limit.  A machine that counts its turns, its calls and its
failures in a row in words of 32 bits, and its tokens in a word of 64 bits, starts again from zero
when a sum does not fit.  This never happens, because a run stops before its counters grow so far.

* `Counters` are the four counters, for numbers and for words alike, and `Counting` is what a stride
  counts.  `counters_stride` says that this is all that a stride does to the counters of a run.
* `Counters.words_count`: counting in words and then looking is the same as counting in numbers and
  then cutting off what does not fit.  So the two can only differ in a counter that is too large.
* `consecutiveErrors_lt_of_reaches`, `totalTokens_add_le_of_reaches` and
  `toolCallsMade_add_room_le_of_reaches` are the bounds at the points of a run.  Each leaves room
  for what the next stride can count.
* `counters_never_wrap` puts them together.
-/

namespace AgentLoop

/-! ## Counting -/

/-- What a stride of a run counts. -/
inductive Counting where
  /-- A turn is begun. -/
  | turn
  /-- A reply is taken in that took so many tokens. -/
  | tokens (amount : Nat)
  | success
  | failure
  | nothing
  deriving DecidableEq, Repr

/-- The counters of a run; the tokens may be counted in words of another size than the rest. -/
structure Counters (α β : Type) where
  iterations : α
  totalTokens : β
  toolCallsMade : α
  consecutiveErrors : α
  deriving DecidableEq, Repr

namespace Counters

/-- Counts.  A success ends a row of failures. -/
def count {α β : Type} [Add α] [OfNat α 0] [OfNat α 1] [Add β] (ofNat : Nat → β)
    (k : Counters α β) : Counting → Counters α β
  | .turn => { k with iterations := k.iterations + 1 }
  | .tokens amount => { k with totalTokens := k.totalTokens + ofNat amount }
  | .success => { k with toolCallsMade := k.toolCallsMade + 1, consecutiveErrors := 0 }
  | .failure => { k with consecutiveErrors := k.consecutiveErrors + 1 }
  | .nothing => k

/-- Counts in numbers. -/
def countNat (k : Counters Nat Nat) (counting : Counting) : Counters Nat Nat :=
  k.count id counting

/-- Counts in words, whose sums wrap around. -/
def countWords (k : Counters UInt32 UInt64) (counting : Counting) : Counters UInt32 UInt64 :=
  k.count UInt64.ofNat counting

/-- What is left of the counters in words. -/
def words (k : Counters Nat Nat) : Counters UInt32 UInt64 :=
  ⟨.ofNat k.iterations, .ofNat k.totalTokens, .ofNat k.toolCallsMade, .ofNat k.consecutiveErrors⟩

/-- It is the same to count in words and to count in numbers of which words keep what they can. -/
theorem words_count (k : Counters Nat Nat) (counting : Counting) :
    (k.countNat counting).words = k.words.countWords counting := by
  cases counting <;> simp [countNat, countWords, count, words]

end Counters

/-- The counters of the state of a run. -/
def LoopState.counters (s : LoopState) : Counters Nat Nat :=
  ⟨s.iterations, s.totalTokens, s.toolCallsMade, s.consecutiveErrors⟩

/-- What is counted of a call that ended like this. -/
def ActionStatus.counting : ActionStatus → Counting
  | succeeded => .success
  | failed | timedOut | denied | invalidArguments => .failure
  | blocked | cancelled => .nothing

theorem Fate.counters_count (fate : Fate) (tool : String) (s : LoopState) :
    (fate.count tool s).counters = s.counters.countNat fate.status.counting := by
  rw [Fate.count]
  cases fate.status <;> rfl

/-- The counters of a run that keeps to its configuration. -/
structure LoopState.WithinBounds (config : LoopConfig) (s : LoopState) : Prop where
  iterations_le : s.iterations ≤ max 1 config.maxIterations
  consecutiveErrors_le : s.consecutiveErrors ≤ max 1 config.errorThreshold
  /-- No turn took more tokens than a word of 32 bits can say. -/
  totalTokens_le : s.totalTokens ≤ s.iterations * (UInt32.size - 1)

namespace Controller

variable {M G B X : Type} (c : Controller M G B X) (inv : Invocation) {s : Stand M G B X}

/-- What a stride counts. -/
def counting : Phase → Stand M G B X → Counting
  | .turn, _ => .turn
  | .replied reply, _ => .tokens reply.tokens
  | .dispatching (call :: _) _, s => (c.judge inv call s.world).1.status.counting
  | _, _ => .nothing

theorem counting_eq_nothing {phase : Phase} (hturn : phase ≠ .turn)
    (hreply : ∀ reply, phase ≠ .replied reply)
    (hcall : ∀ call calls deferred, phase ≠ .dispatching (call :: calls) deferred) :
    c.counting inv phase s = .nothing := by
  match phase with
  | .turn => exact absurd rfl hturn
  | .replied reply => exact absurd rfl (hreply reply)
  | .dispatching [] deferred => rfl
  | .dispatching (call :: calls) deferred => exact absurd rfl (hcall call calls deferred)
  | .deferring calls => rfl
  | .closing => rfl

/-- However it flows on, a stride does nothing to the counters but count. -/
theorem counters_stride {phase : Phase} (hpending : s.state.transcript.pending = phase.open) :
    (c.stride inv phase s).1.stand.state.counters =
      s.state.counters.countNat (c.counting inv phase s) := by
  rcases phase.dispatching_or with ⟨call, calls, deferred, rfl⟩ | hcall
  · obtain ⟨t, hstate⟩ := c.exists_state_dispatch inv hpending
    rw [hstate]
    exact Fate.counters_count _ _ _
  rcases phase.replied_or with ⟨reply, rfl⟩ | hreply
  · obtain ⟨t, awaiting, hstate⟩ := c.exists_state_strideReply inv reply s
    rw [stride, hstate]
    rfl
  have hcount := c.iterations_stride_eq inv phase s
  obtain ⟨t, n, hstate⟩ := c.exists_state_stride inv (s := s) hreply hcall
  rw [hstate] at hcount ⊢
  obtain rfl : n = s.state.iterations + phase.begun := hcount
  by_cases hturn : phase = .turn
  · subst hturn
    rfl
  · rw [c.counting_eq_nothing inv hturn hreply hcall]
    cases phase <;> first | rfl | exact absurd rfl hturn

variable {c inv} {w : World M G B X} {phase : Phase} {past : Journal}

/-! ## Failures in a row -/

/-- A run goes on with a call only if the row of failures is short of the threshold. -/
theorem Settles.consecutiveErrors_lt {errors errors' : Nat} {status : ActionStatus}
    (h : c.Settles errors status .goOn errors') : errors' < max 1 c.config.errorThreshold := by
  cases h with
  | succeeded => exact Nat.lt_of_lt_of_le Nat.zero_lt_one (Nat.le_max_left _ _)
  | failed _ hmore => exact Nat.lt_of_lt_of_le hmore (Nat.le_max_right _ _)

/-- Every failure is followed by a look at the threshold, before the next one can be counted. -/
theorem consecutiveErrors_lt_of_reaches (h : c.Reaches inv w phase past s) :
    s.state.consecutiveErrors < max 1 c.config.errorThreshold := by
  induction h with
  | begin hadopt => exact Nat.lt_of_lt_of_le Nat.zero_lt_one (Nat.le_max_left _ _)
  | @stride phase past s hpast hflow ih =>
    rcases phase.dispatching_or with ⟨call, calls, deferred, rfl⟩ | hcall
    · have hsettles := c.settles_dispatch inv (awaits_of_reaches hpast).pending
      rw [hflow] at hsettles
      exact hsettles.consecutiveErrors_lt
    · rw [c.consecutiveErrors_stride_eq inv hcall]
      exact ih

/-! ## Tokens -/

/-- Every turn has one reply, so the tokens counted, together with those of a reply that just came
in, are those of as many replies as there were turns. -/
theorem totalTokens_add_le_of_reaches {most : Nat}
    (hreplies : ∀ reply ∈ (c.run inv w).journal.replies, reply.tokens ≤ most)
    (h : c.Reaches inv w phase past s) :
    s.state.totalTokens + (phase.incoming.map ModelReply.tokens).sum ≤
      s.state.iterations * most := by
  have hpast : ∀ reply ∈ past.replies, reply.tokens ≤ most := by
    intro reply hreply
    refine hreplies reply ?_
    have hprefix := (List.prefix_append past _).trans h.isPrefix_run
    obtain ⟨rest, hrest⟩ := hprefix
    rw [← hrest, Journal.replies_append]
    exact List.mem_append_left _ hreply
  have hsum := List.sum_le_card_nsmul (past.replies.map ModelReply.tokens) most
    (by simpa using hpast)
  rw [List.length_map, length_replies_of_reaches h, nsmul_eq_mul, Nat.cast_id] at hsum
  rwa [(counts_of_reaches h).totalTokens, ← tokensReceived_of_reaches h]

/-! ## Calls that succeeded -/

/-- A stride counts no more calls than there is room for, and what it does not count remains room
for the rest of the turn. -/
theorem toolCallsMade_stride_add_room_le (h : c.Reaches inv w phase past s) {cap : Nat}
    (hcap : cap = c.config.maxToolCallsPerIteration) :
    (c.stride inv phase s).1.stand.state.toolCallsMade + (c.stride inv phase s).2.room cap ≤
      s.state.toolCallsMade + phase.room cap + phase.begun * cap := by
  have hpending := (awaits_of_reaches h).pending
  have hcount : (c.stride inv phase s).1.stand.state.toolCallsMade =
      (s.state.counters.countNat (c.counting inv phase s)).toolCallsMade :=
    congrArg Counters.toolCallsMade (c.counters_stride inv hpending)
  rcases phase.dispatching_or with ⟨call, calls, deferred, rfl⟩ | hcall
  · have hone :
        (c.stride inv (.dispatching (call :: calls) deferred) s).1.stand.state.toolCallsMade ≤
          s.state.toolCallsMade + 1 := by
      rw [hcount]
      simp only [counting]
      cases (c.judge inv call s.world).1.status <;>
        simp [ActionStatus.counting, Counters.countNat, Counters.count, LoopState.counters]
    simp only [stride, Phase.room, List.length_cons] at hone ⊢
    omega
  · have hsame : (c.stride inv phase s).1.stand.state.toolCallsMade = s.state.toolCallsMade := by
      rw [hcount]
      cases phase with
      | dispatching calls deferred =>
        cases calls with
        | nil => rfl
        | cons call calls => exact absurd rfl (hcall call calls deferred)
      | _ => rfl
    rw [hsame, Nat.add_assoc]
    refine Nat.add_le_add_left ?_ _
    by_cases hturn : phase = .turn
    · subst hturn
      obtain ⟨lap, -, -, hnext | ⟨-, reply, hnext⟩⟩ := c.beats_turn inv s
      · rw [hnext]
        exact Nat.zero_le _
      · rw [hnext]
        simp [Phase.room, Phase.begun]
    · obtain ⟨n, -, hroom⟩ := c.beats_stride inv hpending hturn
      rw [← hcap] at hroom
      omega

/-- The calls that succeeded, together with those that may still be dispatched in this turn, are no
more than the cap on calls gives to the turns so far. -/
theorem toolCallsMade_add_room_le_of_reaches (h : c.Reaches inv w phase past s) :
    s.state.toolCallsMade + phase.room c.config.maxToolCallsPerIteration ≤
      s.state.iterations * c.config.maxToolCallsPerIteration := by
  induction h with
  | begin hadopt => exact Nat.zero_le _
  | @stride phase past s hpast hflow ih =>
    have hstride := toolCallsMade_stride_add_room_le hpast rfl
    rw [c.iterations_stride_eq, Nat.add_mul]
    omega

/-! ## No counter wraps -/

/-- A stride adds at most one to the row of failures. -/
theorem consecutiveErrors_stride_le {phase : Phase}
    (hpending : s.state.transcript.pending = phase.open) :
    (c.stride inv phase s).1.stand.state.consecutiveErrors ≤ s.state.consecutiveErrors + 1 := by
  have hcount : (c.stride inv phase s).1.stand.state.consecutiveErrors =
      (s.state.counters.countNat (c.counting inv phase s)).consecutiveErrors :=
    congrArg Counters.consecutiveErrors (c.counters_stride inv hpending)
  rw [hcount]
  cases c.counting inv phase s <;> simp [Counters.countNat, Counters.count, LoopState.counters]

/-- A stride adds the tokens of the reply that just came in. -/
theorem totalTokens_stride {phase : Phase}
    (hpending : s.state.transcript.pending = phase.open) :
    (c.stride inv phase s).1.stand.state.totalTokens =
      s.state.totalTokens + (phase.incoming.map ModelReply.tokens).sum := by
  have hcount : (c.stride inv phase s).1.stand.state.totalTokens =
      (s.state.counters.countNat (c.counting inv phase s)).totalTokens :=
    congrArg Counters.totalTokens (c.counters_stride inv hpending)
  rw [hcount]
  match phase with
  | .replied reply => simp [counting, Counters.countNat, Counters.count, Phase.incoming,
      LoopState.counters]
  | .dispatching (call :: calls) deferred =>
    rw [counting]
    cases (c.judge inv call s.world).1.status <;> rfl
  | .turn | .dispatching [] _ | .deferring _ | .closing => rfl

/-- A run keeps to its configuration. -/
theorem withinBounds_of_reaches
    (hreplies : ∀ reply ∈ (c.run inv w).journal.replies, reply.tokens < UInt32.size)
    (h : c.Reaches inv w phase past s) : s.state.WithinBounds c.config where
  iterations_le := Nat.le_trans (Nat.le_add_right _ _) (iterations_of_reaches h).2
  consecutiveErrors_le := Nat.le_of_lt (consecutiveErrors_lt_of_reaches h)
  totalTokens_le := Nat.le_trans (Nat.le_add_right _ _)
    (totalTokens_add_le_of_reaches
      (fun reply hreply => Nat.le_pred_of_lt (hreplies reply hreply)) h)

/-- So does what the next stride makes of it, be it the last one. -/
theorem withinBounds_stride
    (hreplies : ∀ reply ∈ (c.run inv w).journal.replies, reply.tokens < UInt32.size)
    (h : c.Reaches inv w phase past s) :
    (c.stride inv phase s).1.stand.state.WithinBounds c.config where
  iterations_le := by
    rw [c.iterations_stride_eq]
    exact (iterations_of_reaches h).2
  consecutiveErrors_le := by
    have hstride : (c.stride inv phase s).1.stand.state.consecutiveErrors ≤
        s.state.consecutiveErrors + 1 :=
      consecutiveErrors_stride_le (awaits_of_reaches h).pending
    exact Nat.le_trans hstride (consecutiveErrors_lt_of_reaches h)
  totalTokens_le := by
    rw [totalTokens_stride (awaits_of_reaches h).pending, c.iterations_stride_eq]
    have hsum := totalTokens_add_le_of_reaches
      (fun reply hreply => Nat.le_pred_of_lt (hreplies reply hreply)) h
    exact Nat.le_trans hsum (Nat.mul_le_mul_right _ (Nat.le_add_right _ _))

/-- The calls that succeeded are no more than the cap on calls gives to all turns. -/
theorem toolCallsMade_stride_le (h : c.Reaches inv w phase past s) :
    (c.stride inv phase s).1.stand.state.toolCallsMade ≤
      max 1 c.config.maxIterations * c.config.maxToolCallsPerIteration := by
  have hstride := toolCallsMade_stride_add_room_le h rfl
  have hpast := toolCallsMade_add_room_le_of_reaches h
  have hturns := Nat.mul_le_mul_right c.config.maxToolCallsPerIteration (iterations_of_reaches h).2
  rw [turnLimit, Nat.add_mul] at hturns
  omega

/-- At every point of a run, and after every stride from it, the counters keep to the configuration.
Here the numbers of the configuration and the tokens of each reply are words of 32 bits.  So a
stride that counts in words, whose sums wrap around, comes to the same counters as one that counts
in numbers: no sum of turns, of tokens or of failures in a row ever wraps, and no sum of successful
calls does if a word can hold as many as the configuration allows. -/
theorem counters_never_wrap (c : Controller M G B X) (inv : Invocation) (w : World M G B X)
    (hturns : c.config.maxIterations < UInt32.size)
    (hthreshold : c.config.errorThreshold < UInt32.size)
    (hreplies : ∀ reply ∈ (c.run inv w).journal.replies, reply.tokens < UInt32.size) :
    ∀ phase past s, c.Reaches inv w phase past s →
      s.state.WithinBounds c.config ∧
      (c.stride inv phase s).1.stand.state.WithinBounds c.config ∧
      ((s.state.counters.words.countWords (c.counting inv phase s)).iterations.toNat =
          (c.stride inv phase s).1.stand.state.iterations ∧
        (s.state.counters.words.countWords (c.counting inv phase s)).totalTokens.toNat =
          (c.stride inv phase s).1.stand.state.totalTokens ∧
        (s.state.counters.words.countWords (c.counting inv phase s)).consecutiveErrors.toNat =
          (c.stride inv phase s).1.stand.state.consecutiveErrors ∧
        (max 1 c.config.maxIterations * c.config.maxToolCallsPerIteration < UInt32.size →
          (s.state.counters.words.countWords (c.counting inv phase s)).toolCallsMade.toNat =
            (c.stride inv phase s).1.stand.state.toolCallsMade)) := by
  intro phase past s h
  have hbefore := withinBounds_of_reaches hreplies h
  have hafter := withinBounds_stride hreplies h
  refine ⟨hbefore, hafter, ?_⟩
  rw [← Counters.words_count, ← c.counters_stride inv (awaits_of_reaches h).pending]
  simp only [Counters.words, LoopState.counters]
  have hiterations : (c.stride inv phase s).1.stand.state.iterations < UInt32.size :=
    Nat.lt_of_le_of_lt hafter.iterations_le (Nat.max_lt.2 ⟨by decide, hturns⟩)
  have herrors : (c.stride inv phase s).1.stand.state.consecutiveErrors < UInt32.size :=
    Nat.lt_of_le_of_lt hafter.consecutiveErrors_le (Nat.max_lt.2 ⟨by decide, hthreshold⟩)
  -- the largest product of two words of 32 bits is a word of 64 bits
  have htokens : (c.stride inv phase s).1.stand.state.totalTokens < UInt64.size :=
    calc (c.stride inv phase s).1.stand.state.totalTokens
      _ ≤ (c.stride inv phase s).1.stand.state.iterations * (UInt32.size - 1) :=
        hafter.totalTokens_le
      _ ≤ UInt32.size * (UInt32.size - 1) := Nat.mul_le_mul_right _ (Nat.le_of_lt hiterations)
      _ < UInt64.size := by decide
  refine ⟨UInt32.toNat_ofNat_of_lt hiterations, UInt64.toNat_ofNat_of_lt htokens,
    UInt32.toNat_ofNat_of_lt herrors, fun hcalls => ?_⟩
  exact UInt32.toNat_ofNat_of_lt (Nat.lt_of_le_of_lt (toolCallsMade_stride_le h) hcalls)

/-- Two replies that each took as many tokens as a word of 32 bits can say. -/
def costly : World Script Unit Unit Unit :=
  reciting [{ callReply "a" with usage := some ⟨0, 0, 0xffffffff⟩ },
    { ModelReply.text "done" with usage := some ⟨0, 0, 0xffffffff⟩ }, .text "done"]

/-- Both replies are counted at the last point of their run, and the tokens fit into a word of 64
bits, but not into one of 32 bits. -/
theorem counters_never_wrap_costly :
    ∃ phase past s, (scripted .default (.success "done")).Reaches task costly phase past s ∧
      s.state.WithinBounds .default ∧
      ((scripted .default (.success "done")).stride task phase s).1.stand.state.totalTokens =
        0x1fffffffe ∧
      (s.state.counters.words.countWords
        ((scripted .default (.success "done")).counting task phase s)).totalTokens.toNat =
        0x1fffffffe ∧
      (s.state.counters.words.countWords
        ((scripted .default (.success "done")).counting task phase s)).toolCallsMade.toNat =
        ((scripted .default (.success "done")).stride task phase s).1.stand.state.toolCallsMade := by
  rcases (scripted .default (.success "done")).run_cases task costly with
    ⟨error, hadopt, hrun⟩ | ⟨journal, s, flow, hends, hrun⟩
  · have hsome : ((scripted .default (.success "done")).run task costly).ending.reason?.isSome := by
      decide +kernel
    rw [hrun] at hsome
    exact absurd hsome Bool.false_ne_true
  have hrecorded : ((scripted .default (.success "done")).run task costly).journal.tokensRecorded =
      0x1fffffffe := by
    decide +kernel
  rw [hrun, tokensRecorded_reportOf, ← (counts_of_ends hends).totalTokens] at hrecorded
  obtain @⟨phase, past, s, hpast, hflow⟩ := hends
  obtain ⟨hbefore, -, -, htokens, -, hcalls⟩ :=
    (scripted .default (.success "done")).counters_never_wrap task costly (by decide) (by decide)
      (by decide +kernel) phase past s hpast
  exact ⟨phase, past, s, hpast, hbefore, hrecorded, htokens.trans hrecorded, hcalls (by decide)⟩

end Controller

end AgentLoop
