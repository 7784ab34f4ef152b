import Mathlib.Data.List.Induction
import Mathlib.Order.Bounds.Defs
import RouteAtlas.Ticket

/-!
# Stale scans never count

Scans take their tickets and hand them in at any time and in any order, and a ticket may be handed
in again. Each operation on an office is one step, so whatever happens is a sequence of steps:
`History` has all of them, with the answer to each. What an office remembers of its history is two
numbers; `Ledger` says what they tell.

## Key results

- `Ledger.issue`, `Ledger.accept`: what a step keeps
- `Ledger.counts_iff`: when a ticket that is handed in counts
- `History.fresher_only`: the tickets that count are newer and newer
-/

namespace RouteAtlas.TicketOffice

/-! ## Histories -/

/-- An operation on an office, with its answer. -/
inductive Event where
  | issued (t : Ticket)
  | handedIn (t : Ticket) (counts : Bool)
deriving DecidableEq, Repr

/-- The tickets that were issued, in order. -/
def ticketsIssued (events : List Event) : List Ticket :=
  events.filterMap fun
    | .issued t => some t
    | .handedIn _ _ => none

/-- The tickets that were handed in, in order and with repetitions. -/
def ticketsHandedIn (events : List Event) : List Ticket :=
  events.filterMap fun
    | .issued _ => none
    | .handedIn t _ => some t

/-- The tickets that were handed in and counted, in order. -/
def ticketsCounted (events : List Event) : List Ticket :=
  events.filterMap fun
    | .handedIn t true => some t
    | _ => none

/-- What may have happened at an office since it was new, and the office after that. Only a ticket
that was issued is handed in. -/
inductive History : List Event → TicketOffice → Prop where
  | start : History [] {}
  | issue {past : List Event} {o : TicketOffice} (before : History past o) :
    History (past ++ [.issued o.issue.1]) o.issue.2
  | accept {past : List Event} {o : TicketOffice} {t : Ticket} (before : History past o)
    (taken : t ∈ ticketsIssued past) : History (past ++ [.handedIn t (o.accept t).1]) (o.accept t).2

section Views

variable (past : List Event) (t : Ticket)

/-- `ticketsIssued` goes through a history event by event. -/
private theorem ticketsIssued_append (future : List Event) :
    ticketsIssued (past ++ future) = ticketsIssued past ++ ticketsIssued future :=
  List.filterMap_append

@[simp] theorem ticketsIssued_issued :
    ticketsIssued (past ++ [.issued t]) = ticketsIssued past ++ [t] :=
  List.filterMap_append

@[simp] theorem ticketsIssued_handedIn (counts : Bool) :
    ticketsIssued (past ++ [.handedIn t counts]) = ticketsIssued past := by
  simp [ticketsIssued]

@[simp] theorem ticketsHandedIn_issued :
    ticketsHandedIn (past ++ [.issued t]) = ticketsHandedIn past := by
  simp [ticketsHandedIn]

@[simp] theorem ticketsHandedIn_handedIn (counts : Bool) :
    ticketsHandedIn (past ++ [.handedIn t counts]) = ticketsHandedIn past ++ [t] :=
  List.filterMap_append

@[simp] theorem ticketsCounted_issued :
    ticketsCounted (past ++ [.issued t]) = ticketsCounted past := by
  simp [ticketsCounted]

@[simp] theorem ticketsCounted_true :
    ticketsCounted (past ++ [.handedIn t true]) = ticketsCounted past ++ [t] :=
  List.filterMap_append

@[simp] theorem ticketsCounted_false :
    ticketsCounted (past ++ [.handedIn t false]) = ticketsCounted past := by
  simp [ticketsCounted]

end Views

variable {events past : List Event} {o : TicketOffice} {t : Ticket}

/-! ## Steps -/

/-- `accept` of a ticket newer than the latest one accepted: it counts, and is the latest one from
then on. -/
private theorem accept_of_lt (h : o.accepted < t.generation) :
    o.accept t = (true, { o with accepted := t.generation }) := by
  have hle : o.accepted ≤ t.generation := UInt64.le_of_lt h
  simp [accept, h, hle, max]

/-- `accept` of any other ticket changes nothing. -/
private theorem accept_of_le (h : t.generation ≤ o.accepted) : o.accept t = (false, o) := by
  have hlt : ¬ o.accepted < t.generation := UInt64.not_lt.mpr h
  have hmax : max o.accepted t.generation = o.accepted := by
    simp only [max]
    split
    · exact UInt64.le_antisymm h ‹_›
    · rfl
  simp [accept, hlt, hmax]

/-- What the two numbers of an office tell of its history. -/
structure Ledger (events : List Event) (o : TicketOffice) : Prop where
  issued : o.issued.toNat = (ticketsIssued events).length
  generations : (ticketsIssued events).map (·.generation.toNat) =
    List.range' 1 (ticketsIssued events).length
  taken : ∀ t ∈ ticketsHandedIn events, t ∈ ticketsIssued events
  upper : ∀ t ∈ ticketsHandedIn events, t.generation ≤ o.accepted
  counted : ∀ t ∈ ticketsCounted events, t ∈ ticketsHandedIn events
  latest : o.accepted = 0 ∨ ∃ t ∈ ticketsCounted events, t.generation = o.accepted
  increasing : (ticketsCounted events).Pairwise fun t t' => t.generation < t'.generation

namespace Ledger

/-- A new office has an empty `Ledger`. -/
theorem start : Ledger [] {} where
  issued := rfl
  generations := rfl
  taken _ h := h
  upper _ h := absurd h List.not_mem_nil
  counted _ h := h
  latest := .inl rfl
  increasing := .nil

/-- `TicketOffice.issue` keeps the ledger, as long as the numbers last. -/
theorem issue (h : Ledger past o) (few : (ticketsIssued past).length + 1 < UInt64.size) :
    Ledger (past ++ [.issued o.issue.1]) o.issue.2 := by
  -- The counter does not come round to zero, so the new ticket has the next number.
  have hnext : (o.issued + 1).toNat = (ticketsIssued past).length + 1 := by
    rw [UInt64.toNat_add, h.issued]
    exact Nat.mod_eq_of_lt few
  constructor
  · simpa [TicketOffice.issue] using hnext
  · rw [ticketsIssued_issued, List.map_append, h.generations, List.length_append,
      List.length_singleton, List.range'_1_concat]
    simp [TicketOffice.issue, hnext, Nat.add_comm]
  · intro t ht
    simp only [ticketsHandedIn_issued] at ht
    simpa using .inl (h.taken t ht)
  · simpa [TicketOffice.issue] using h.upper
  · simpa using h.counted
  · simpa [TicketOffice.issue] using h.latest
  · simpa using h.increasing

/-- `TicketOffice.accept` keeps the ledger. -/
theorem accept (h : Ledger past o) (taken : t ∈ ticketsIssued past) :
    Ledger (past ++ [.handedIn t (o.accept t).1]) (o.accept t).2 := by
  by_cases hlt : o.accepted < t.generation
  · -- A newer ticket takes the place of the latest one.
    rw [accept_of_lt hlt]
    constructor
    · simpa using h.issued
    · simpa using h.generations
    · simpa [or_imp, forall_and] using ⟨h.taken, taken⟩
    · intro t' ht'
      simp only [ticketsHandedIn_handedIn, List.mem_append, List.mem_singleton] at ht'
      obtain ht' | rfl := ht'
      · exact UInt64.le_of_lt (UInt64.lt_of_le_of_lt (h.upper t' ht') hlt)
      · exact UInt64.le_refl _
    · intro t' ht'
      simp only [ticketsCounted_true, List.mem_append, List.mem_singleton] at ht'
      simpa using ht'.imp_left (h.counted t')
    · exact .inr ⟨t, by simp, rfl⟩
    · -- Every ticket that counted before was handed in, so it is at most the latest one.
      rw [ticketsCounted_true, List.pairwise_append]
      refine ⟨h.increasing, List.pairwise_singleton _ _, ?_⟩
      intro t' ht' t'' ht''
      rw [List.mem_singleton.mp ht'']
      exact UInt64.lt_of_le_of_lt (h.upper t' (h.counted t' ht')) hlt
  · -- Any other one is on record as handed in, and that is all.
    have hle : t.generation ≤ o.accepted := UInt64.not_lt.mp hlt
    rw [accept_of_le hle]
    constructor
    · simpa using h.issued
    · simpa using h.generations
    · simpa [or_imp, forall_and] using ⟨h.taken, taken⟩
    · simpa [or_imp, forall_and] using ⟨h.upper, hle⟩
    · intro t' ht'
      simp only [ticketsCounted_false] at ht'
      simpa using .inl (h.counted t' ht')
    · simpa using h.latest
    · simpa using h.increasing

/-- The tickets of `ticketsIssued` have the generations `1` and what follows. -/
private theorem generation_bounds (h : Ledger events o) (taken : t ∈ ticketsIssued events) :
    1 ≤ t.generation.toNat ∧ t.generation.toNat ≤ (ticketsIssued events).length := by
  have hmem : t.generation.toNat ∈ (ticketsIssued events).map (·.generation.toNat) :=
    List.mem_map_of_mem taken
  rw [h.generations, List.mem_range'_1] at hmem
  omega

/-- `TicketOffice.accept` lets a ticket count unless one at least as new has counted before. -/
private theorem counts_iff (h : Ledger past o) (taken : t ∈ ticketsIssued past) :
    (o.accept t).1 = true ↔ ¬ ∃ t' ∈ ticketsCounted past, t.generation ≤ t'.generation := by
  by_cases hlt : o.accepted < t.generation
  · simp only [accept_of_lt hlt, true_iff]
    -- All that counted is at most the latest one accepted, and this ticket is newer.
    rintro ⟨t', ht', hle⟩
    have hupper := h.upper t' (h.counted t' ht')
    exact UInt64.not_le.mpr hlt (UInt64.le_trans hle hupper)
  · have hle := UInt64.not_lt.mp hlt
    simp only [accept_of_le hle, Bool.false_eq_true, false_iff, Classical.not_not]
    obtain hzero | ⟨t', ht', heq⟩ := h.latest
    · -- No ticket has the number that stands for "none yet".
      have hpos := (h.generation_bounds taken).1
      rw [hzero, UInt64.le_iff_toNat_le, UInt64.toNat_zero] at hle
      omega
    · exact ⟨t', ht', heq ▸ hle⟩

/-- `ticketsCounted` has no ticket twice, since none is newer than itself. -/
private theorem nodup_counted (h : Ledger events o) : (ticketsCounted events).Nodup := by
  refine h.increasing.imp ?_
  rintro t _ hlt rfl
  exact UInt64.lt_irrefl _ hlt

/-- `accepted` is the greatest generation handed in. -/
private theorem isGreatest_accepted (h : Ledger events o) (hne : ticketsHandedIn events ≠ []) :
    IsGreatest {g | ∃ t ∈ ticketsHandedIn events, t.generation = g} o.accepted := by
  constructor
  · -- If nothing has counted, what was handed in is at most zero, and so is zero.
    obtain hzero | ⟨t, ht, heq⟩ := h.latest
    · obtain ⟨t, ht⟩ := List.exists_mem_of_ne_nil _ hne
      have hle := h.upper t ht
      rw [hzero, UInt64.le_zero_iff] at hle
      exact ⟨t, ht, hle.trans hzero.symm⟩
    · exact ⟨t, h.counted t ht, heq⟩
  · rintro g ⟨t, ht, rfl⟩
    exact h.upper t ht

/-- `accepted` is zero as long as nothing is handed in. -/
private theorem accepted_eq_zero (h : Ledger events o) (hnil : ticketsHandedIn events = []) :
    o.accepted = 0 := by
  obtain hzero | ⟨t, ht, _⟩ := h.latest
  · exact hzero
  · have hmem := h.counted t ht
    rw [hnil] at hmem
    exact absurd hmem List.not_mem_nil

/-- `accepted` is a generation that was issued, or zero. -/
private theorem accepted_le (h : Ledger events o) :
    o.accepted.toNat ≤ (ticketsIssued events).length := by
  obtain hzero | ⟨t, ht, heq⟩ := h.latest
  · simp [hzero]
  · rw [← heq]
    exact (h.generation_bounds (h.taken t (h.counted t ht))).2

end Ledger

/-! ## Whole histories -/

/-- The `Ledger` is kept at every moment of a history. -/
private theorem History.ledger (h : History events o)
    (few : (ticketsIssued events).length < UInt64.size) : Ledger events o := by
  -- The bound on the tickets holds of the past too, since tickets are never taken back.
  induction h with
  | start => exact .start
  | @issue past o _ ih =>
    simp only [ticketsIssued_issued, List.length_append, List.length_singleton] at few
    exact (ih (by omega)).issue few
  | accept _ taken ih =>
    simp only [ticketsIssued_handedIn] at few
    exact (ih few).accept taken

/-- A `History` is one up to any moment, too. -/
theorem History.of_append {future : List Event} (h : History (past ++ future) o) :
    ∃ o', History past o' := by
  -- A history grows at its end, so its last event is the first one to be taken off.
  induction future using List.reverseRecOn generalizing o with
  | nil => exact ⟨o, by simpa using h⟩
  | append_singleton future e ih =>
    rw [← List.append_assoc] at h
    generalize hall : past ++ future ++ [e] = all at h
    cases h with
    | start => simp at hall
    | issue before => exact ih ((List.append_inj' hall rfl).1 ▸ before)
    | accept before _ => exact ih ((List.append_inj' hall rfl).1 ▸ before)

/-- The answer to a ticket handed in is that of `accept` at an office with that past. -/
private theorem History.of_handedIn {counts : Bool} (h : History (past ++ [.handedIn t counts]) o) :
    ∃ o', History past o' ∧ t ∈ ticketsIssued past ∧ counts = (o'.accept t).1 := by
  generalize hall : past ++ [Event.handedIn t counts] = all at h
  -- The last event is a ticket handed in, so the last step is the one that hands it in.
  cases h with
  | start => simp at hall
  | issue before => simp at hall
  | @accept past' o' t' before taken =>
    obtain ⟨rfl, hevent⟩ := List.append_inj' hall rfl
    simp only [List.cons.injEq, Event.handedIn.injEq, and_true] at hevent
    obtain ⟨rfl, rfl⟩ := hevent
    exact ⟨o', before, taken, rfl⟩

/-- In every `History` with fewer than `2 ^ 64` tickets: the tickets issued have the generations
`1`, `2`, ..; a ticket that is handed in counts exactly if none at least as new has counted before;
so the tickets that count are newer and newer, and none counts twice; and the latest generation
`accepted` is the greatest one handed in, zero if there is none, and at most the number of tickets
issued. -/
theorem History.fresher_only (h : History events o)
    (few : (ticketsIssued events).length < UInt64.size) :
    (ticketsIssued events).map (·.generation.toNat) = List.range' 1 (ticketsIssued events).length ∧
    (∀ past t counts future, events = past ++ .handedIn t counts :: future →
      (counts = true ↔ ¬ ∃ t' ∈ ticketsCounted past, t.generation ≤ t'.generation)) ∧
    ((ticketsCounted events).Pairwise fun t t' => t.generation < t'.generation) ∧
    (ticketsCounted events).Nodup ∧
    (ticketsHandedIn events = [] → o.accepted = 0) ∧
    (ticketsHandedIn events ≠ [] →
      IsGreatest {g | ∃ t ∈ ticketsHandedIn events, t.generation = g} o.accepted) ∧
    o.accepted.toNat ≤ (ticketsIssued events).length := by
  have hledger := h.ledger few
  refine ⟨hledger.generations, ?_, hledger.increasing, hledger.nodup_counted,
    hledger.accepted_eq_zero,
    hledger.isGreatest_accepted, hledger.accepted_le⟩
  intro past t counts future hevents
  -- The history up to the answer is one on its own, and its ledger tells the answer.
  have hsplit : past ++ Event.handedIn t counts :: future = (past ++ [.handedIn t counts]) ++
      future := by simp
  rw [hevents, hsplit] at h few
  obtain ⟨_, hupTo⟩ := h.of_append
  obtain ⟨o', hpast, taken, rfl⟩ := hupTo.of_handedIn
  -- Later tickets can only add to those issued before.
  have hfew : (ticketsIssued past).length < UInt64.size := by
    rw [ticketsIssued_append, ticketsIssued_handedIn, List.length_append] at few
    omega
  exact (hpast.ledger hfew).counts_iff taken

/-- Two scans that finish in the other order, the second one handed in twice, and a third one. -/
def outOfOrder : List Event :=
  [.issued ⟨1⟩, .issued ⟨2⟩, .handedIn ⟨2⟩ true, .handedIn ⟨1⟩ false, .handedIn ⟨2⟩ false,
    .issued ⟨3⟩,
    .handedIn ⟨3⟩ true]

/-- In `outOfOrder` the second and the third scan count. The first one comes when the second has
counted, and the latest one accepted is the third. -/
theorem outOfOrder_fresher_only :
    History outOfOrder ⟨3, 3⟩ ∧ ticketsCounted outOfOrder = [⟨2⟩, ⟨3⟩] ∧
      (∃ t' ∈ ticketsCounted (outOfOrder.take 3), (1 : UInt64) ≤ t'.generation) ∧
      IsGreatest {g | ∃ t ∈ ticketsHandedIn outOfOrder, t.generation = g} 3 := by
  have hhistory : History outOfOrder ⟨3, 3⟩ := by
    have hsecond := History.start.issue.issue.accept (t := ⟨2⟩) (by decide)
    have hagain := (hsecond.accept (t := ⟨1⟩) (by decide)).accept (t := ⟨2⟩) (by decide)
    exact hagain.issue.accept (t := ⟨3⟩) (by decide)
  obtain ⟨_, hanswers, _, _, _, hlatest, _⟩ := hhistory.fresher_only (by decide)
  -- The fourth event is the first ticket, handed in after the second one has counted.
  have hfirst := hanswers (outOfOrder.take 3) ⟨1⟩ false (outOfOrder.drop 4) rfl
  refine ⟨hhistory, by decide, ?_, hlatest (by decide)⟩
  by_contra hnone
  exact absurd (hfirst.mpr hnone) (by decide)

end RouteAtlas.TicketOffice
