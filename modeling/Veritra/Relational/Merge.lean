import Mathlib

/-! # Merging chains of an ordered table

A recursive query can walk several chains of one table in id order: a queue holds the next row of
each chain, the lowest one is taken out, and the next row of its chain is queued in its place. When
no row is in two chains, the rows taken are those of the table that are in some chain, in order.
-/

namespace Relational.Merge

variable {ρ κ : Type*}

/-- A queued row, with the chain it came from. -/
structure Queued (κ ρ : Type*) where
  chain : κ
  row : ρ
  deriving DecidableEq, Repr

variable {queue rest : List (Queued κ ρ)} {lowest queued : Queued κ ρ}

section Queue

variable (id : ρ → ℕ)

/-- The queued row with the lowest id, and the rest of the queue. -/
def popLowest : List (Queued κ ρ) → Option (Queued κ ρ × List (Queued κ ρ))
  | [] => none
  | first :: queue =>
    match popLowest queue with
    | none => some (first, queue)
    | some (lowest, rest) =>
      if id lowest.row < id first.row then some (lowest, first :: rest) else some (first, queue)

theorem popLowest_eq_none (empty : popLowest id queue = none) : queue = [] := by
  cases queue with
  | nil => rfl
  | cons first queue =>
    simp only [popLowest] at empty
    split at empty
    · cases empty
    · split at empty <;> cases empty

theorem popLowest_eq_some (popped : popLowest id queue = some (lowest, rest)) :
    queue.Perm (lowest :: rest) ∧ ∀ queued ∈ queue, id lowest.row ≤ id queued.row := by
  induction queue generalizing lowest rest with
  | nil => cases popped
  | cons first queue ih =>
    simp only [popLowest] at popped
    split at popped
    · next empty =>
      cases popped
      rw [popLowest_eq_none id empty]
      simp
    · next lower others inner =>
      obtain ⟨perm, least⟩ := ih inner
      split at popped
      · next less =>
        cases popped
        refine ⟨(perm.cons first).trans (.swap ..), ?_⟩
        intro queued mem
        rcases List.mem_cons.mp mem with rfl | later
        · exact less.le
        · exact least queued later
      · next notLess =>
        cases popped
        refine ⟨.refl _, ?_⟩
        intro queued mem
        rcases List.mem_cons.mp mem with rfl | later
        · exact Nat.le_refl _
        · exact (Nat.le_of_not_lt notLess).trans (least queued later)

end Queue

section Walk

variable (id : ρ → ℕ) (rows : List ρ) (inChain : κ → ρ → Bool)

/-- The chain's first row after an id. -/
def next (chain : κ) (after : ℤ) : Option ρ :=
  rows.find? fun row => after < id row && inChain chain row

/-- Each chain's first row after an id. -/
def seeds (chains : List κ) (after : ℤ) : List (Queued κ ρ) :=
  chains.filterMap fun chain => (next id rows inChain chain after).map (⟨chain, ·⟩)

/-- Take the lowest row out of the queue and queue the next row of its chain. The first argument
bounds the number of rows taken. -/
def walk : ℕ → List (Queued κ ρ) → List (Queued κ ρ)
  | 0, _ => []
  | fuel + 1, queue =>
    match popLowest id queue with
    | none => []
    | some (lowest, rest) =>
      let queued := (next id rows inChain lowest.chain (id lowest.row)).map (⟨lowest.chain, ·⟩)
      lowest :: walk fuel (rest ++ queued.toList)

/-- The row is in one of the chains. -/
def inSome (chains : List κ) (row : ρ) : Bool := chains.any fun chain => inChain chain row

end Walk

section Order

variable {id : ρ → ℕ} {rows : List ρ} {inChain : κ → ρ → Bool} {chains : List κ}
  {chain : κ} {after : ℤ} {row : ρ}

theorem next_eq_some (found : next id rows inChain chain after = some row) :
    row ∈ rows ∧ after < id row ∧ inChain chain row = true := by
  have holds := List.find?_some found
  simp only [Bool.and_eq_true, decide_eq_true_eq] at holds
  exact ⟨List.mem_of_find?_eq_some found, holds⟩

section

variable (sorted : rows.Pairwise fun row later => id row < id later) (mem : row ∈ rows)
  (beyond : after < id row)

include sorted mem beyond

/-- The next row is the first one of the chain. -/
theorem exists_next (belongs : inChain chain row = true) :
    ∃ first, next id rows inChain chain after = some first ∧ id first ≤ id row := by
  unfold next
  induction rows with
  | nil => cases mem
  | cons head rest ih =>
    obtain ⟨above, sortedRest⟩ := List.pairwise_cons.mp sorted
    rw [List.find?_cons]
    split
    · refine ⟨head, rfl, ?_⟩
      rcases List.mem_cons.mp mem with rfl | later
      · exact Nat.le_refl _
      · exact (above row later).le
    · next miss =>
      rcases List.mem_cons.mp mem with rfl | later
      · simp [beyond, belongs] at miss
      · exact ih sortedRest later

/-- Taking the lowest row that is left takes the head of what is left. -/
theorem filter_eq_cons {p : ρ → Bool} (holds : p row = true)
    (least : ∀ other ∈ rows, after < id other → p other = true → id row ≤ id other) :
    (rows.filter fun other => after < id other && p other) =
      row :: rows.filter fun other => (id row : ℤ) < id other && p other := by
  induction rows with
  | nil => cases mem
  | cons head rest ih =>
    obtain ⟨above, sortedRest⟩ := List.pairwise_cons.mp sorted
    rcases List.mem_cons.mp mem with rfl | later
    · -- The head is the row, and every other row is beyond it.
      have rest_eq : (rest.filter fun other => after < id other && p other) =
          rest.filter fun other => (id row : ℤ) < id other && p other := by
        refine List.filter_congr fun other otherMember => ?_
        have less : (id row : ℤ) < id other := Int.ofNat_lt.mpr (above other otherMember)
        rw [decide_eq_true less, decide_eq_true (beyond.trans less)]
      simp [beyond, holds, rest_eq]
    · have less : id head < id row := above row later
      have skipped : (decide (after < id head) && p head) = false := by
        by_contra hit
        simp only [Bool.not_eq_false, Bool.and_eq_true, decide_eq_true_eq] at hit
        exact absurd (least head List.mem_cons_self hit.1 hit.2) (Nat.not_le.mpr less)
      have skipped' : (decide ((id row : ℤ) < id head) && p head) = false := by
        have notBeyond : ¬ (id row : ℤ) < id head := fun beyondRow =>
          absurd (Int.ofNat_lt.mp beyondRow) (Nat.lt_asymm less)
        rw [decide_eq_false notBeyond, Bool.false_and]
      have tail := ih sortedRest later fun other otherMember =>
        least other (List.mem_cons_of_mem _ otherMember)
      rw [List.filter_cons, skipped, List.filter_cons, skipped']
      simpa using tail

end

variable (id rows inChain chains)

/-- The queue after the rows up to an id were taken: the next row of every chain that has one. -/
structure Ready (after : ℤ) (queue : List (Queued κ ρ)) : Prop where
  listed : ∀ queued ∈ queue, queued.chain ∈ chains ∧ queued.row ∈ rows ∧
    inChain queued.chain queued.row = true ∧ after < id queued.row
  distinct : (queue.map (·.chain)).Nodup
  reaches : ∀ chain ∈ chains, ∀ row ∈ rows, inChain chain row = true → after < id row →
    ∃ queued ∈ queue, queued.chain = chain ∧ id queued.row ≤ id row

variable {id rows inChain chains}

theorem mem_seeds : queued ∈ seeds id rows inChain chains after ↔
    queued.chain ∈ chains ∧ next id rows inChain queued.chain after = some queued.row := by
  simp only [seeds, List.mem_filterMap, Option.map_eq_some_iff]
  constructor
  · rintro ⟨chain, listed, row, found, rfl⟩
    exact ⟨listed, found⟩
  · rintro ⟨listed, found⟩
    exact ⟨queued.chain, listed, queued.row, found, rfl⟩

theorem seeds_ready (sorted : rows.Pairwise fun row later => id row < id later) (unique : chains.Nodup) :
    Ready id rows inChain chains after (seeds id rows inChain chains after) where
  listed queued mem := by
    obtain ⟨listed, found⟩ := mem_seeds.mp mem
    obtain ⟨inRows, beyond, belongs⟩ := next_eq_some found
    exact ⟨listed, inRows, belongs, beyond⟩
  distinct := by
    have sub : ((seeds id rows inChain chains after).map (·.chain)).Sublist chains := by
      unfold seeds
      induction chains with
      | nil => exact .slnil
      | cons chain chains ih =>
        rw [List.filterMap_cons]
        have tail := ih unique.of_cons
        cases next id rows inChain chain after with
        | none => exact tail.cons chain
        | some row => exact tail.cons_cons chain
    exact sub.nodup unique
  reaches chain listed row mem belongs beyond := by
    obtain ⟨first, found, below⟩ := exists_next sorted mem beyond belongs
    exact ⟨⟨chain, first⟩, mem_seeds.mpr ⟨listed, found⟩, rfl, below⟩

section Disjoint

variable (sorted : rows.Pairwise fun row later => id row < id later)
  (apart : ∀ row ∈ rows, ∀ chain ∈ chains, ∀ other ∈ chains,
    inChain chain row = true → inChain other row = true → chain = other)
include sorted apart

/-- Two queued rows with one id come from one chain. -/
theorem Ready.lt_of_ne (ready : Ready id rows inChain chains after queue)
    (lowestMember : lowest ∈ queue) (mem : queued ∈ queue)
    (least : id lowest.row ≤ id queued.row) (differ : queued.chain ≠ lowest.chain) :
    id lowest.row < id queued.row := by
  obtain ⟨listed, inRows, belongs, -⟩ := ready.listed lowest lowestMember
  obtain ⟨otherListed, otherInRows, otherBelongs, -⟩ := ready.listed queued mem
  refine Nat.lt_of_le_of_ne least fun same => differ ?_
  have distinct : (rows.map id).Nodup := List.pairwise_map.mpr (sorted.imp fun less => Nat.ne_of_lt less)
  have equal := List.inj_on_of_nodup_map distinct inRows otherInRows same
  exact apart queued.row otherInRows _ otherListed _ listed otherBelongs (equal ▸ belongs)

/-- Taking the lowest row and queueing the next one of its chain keeps the queue ready. -/
theorem Ready.step (ready : Ready id rows inChain chains after queue)
    (popped : popLowest id queue = some (lowest, rest)) :
    Ready id rows inChain chains (id lowest.row)
      (rest ++ ((next id rows inChain lowest.chain (id lowest.row)).map (⟨lowest.chain, ·⟩)).toList) := by
  obtain ⟨perm, least⟩ := popLowest_eq_some id popped
  have lowestMember : lowest ∈ queue := perm.mem_iff.mpr List.mem_cons_self
  have restMember : ∀ queued ∈ rest, queued ∈ queue := fun queued mem =>
    perm.mem_iff.mpr (List.mem_cons_of_mem _ mem)
  have distinct : lowest.chain ∉ rest.map Queued.chain ∧ (rest.map Queued.chain).Nodup :=
    List.nodup_cons.mp ((perm.map Queued.chain).nodup_iff.mp ready.distinct)
  obtain ⟨lowestListed, -, -, -⟩ := ready.listed lowest lowestMember
  refine ⟨?_, ?_, ?_⟩
  · intro queued mem
    rcases List.mem_append.mp mem with old | fresh
    · obtain ⟨listed, inRows, belongs, -⟩ := ready.listed queued (restMember queued old)
      have differ : queued.chain ≠ lowest.chain := fun same =>
        distinct.1 (same ▸ List.mem_map_of_mem old)
      have less := ready.lt_of_ne sorted apart lowestMember (restMember queued old)
        (least queued (restMember queued old)) differ
      exact ⟨listed, inRows, belongs, Int.ofNat_lt.mpr less⟩
    · obtain ⟨row, found, rfl⟩ := Option.map_eq_some_iff.mp (Option.mem_toList.mp fresh)
      obtain ⟨inRows, beyond, belongs⟩ := next_eq_some found
      exact ⟨lowestListed, inRows, belongs, beyond⟩
  · rw [List.map_append]
    cases next id rows inChain lowest.chain (id lowest.row) with
    | none => simpa using distinct.2
    | some row =>
      refine List.nodup_append.mpr ⟨distinct.2, List.nodup_singleton _, ?_⟩
      rintro chain inRest other fresh rfl
      have same : chain = lowest.chain := List.mem_singleton.mp fresh
      exact distinct.1 (same ▸ inRest)
  · intro chain listed row mem belongs beyond
    by_cases same : chain = lowest.chain
    · obtain ⟨first, found, below⟩ := exists_next sorted mem beyond (same ▸ belongs)
      refine ⟨⟨lowest.chain, first⟩, List.mem_append.mpr (.inr ?_), same.symm, below⟩
      rw [found]
      exact Option.mem_toList.mpr rfl
    · have lowestBeyond := (ready.listed lowest lowestMember).2.2.2
      obtain ⟨queued, queuedMember, queuedChain, below⟩ :=
        ready.reaches chain listed row mem belongs (lowestBeyond.trans beyond)
      refine ⟨queued, List.mem_append.mpr (.inl ?_), queuedChain, below⟩
      rcases List.mem_cons.mp (perm.mem_iff.mp queuedMember) with rfl | inRest
      · exact absurd queuedChain.symm same
      · exact inRest

/-- The walk takes the rows of the chains in the table's order, each with its own chain. -/
theorem walk_eq (fuel : ℕ) (ready : Ready id rows inChain chains after queue) :
    (walk id rows inChain fuel queue).map (·.row) =
        (rows.filter fun row => after < id row && inSome inChain chains row).take fuel ∧
      ∀ queued ∈ walk id rows inChain fuel queue, queued.chain ∈ chains ∧ inChain queued.chain queued.row = true := by
  induction fuel generalizing after queue with
  | zero => simp [walk]
  | succ fuel ih =>
    simp only [walk]
    cases popped : popLowest id queue with
    | none =>
      -- With an empty queue no chain has a row left.
      obtain rfl := popLowest_eq_none id popped
      have none_left : (rows.filter fun row => after < id row && inSome inChain chains row) = [] := by
        refine List.filter_eq_nil_iff.mpr fun row mem hit => ?_
        simp only [inSome, Bool.and_eq_true, decide_eq_true_eq, List.any_eq_true] at hit
        obtain ⟨beyond, chain, listed, belongs⟩ := hit
        obtain ⟨_, absurdMember, -⟩ := ready.reaches chain listed row mem belongs beyond
        cases absurdMember
      simp [none_left]
    | some result =>
      obtain ⟨lowest, rest⟩ := result
      obtain ⟨perm, least⟩ := popLowest_eq_some id popped
      have lowestMember : lowest ∈ queue := perm.mem_iff.mpr List.mem_cons_self
      obtain ⟨listed, inRows, belongs, beyond⟩ := ready.listed lowest lowestMember
      have holds : inSome inChain chains lowest.row = true :=
        List.any_eq_true.mpr ⟨lowest.chain, listed, belongs⟩
      have head := filter_eq_cons sorted inRows beyond holds fun other otherMember otherBeyond hit => by
        obtain ⟨chain, chainListed, otherBelongs⟩ := List.any_eq_true.mp hit
        obtain ⟨queued, queuedMember, -, below⟩ :=
          ready.reaches chain chainListed other otherMember otherBelongs otherBeyond
        exact (least queued queuedMember).trans below
      obtain ⟨tail, chained⟩ := ih (ready.step sorted apart popped)
      refine ⟨?_, ?_⟩
      · rw [head, List.take_succ_cons, ← tail]
        rfl
      · intro queued mem
        rcases List.mem_cons.mp mem with rfl | later
        · exact ⟨listed, belongs⟩
        · exact chained queued later

end Disjoint
end Order
end Relational.Merge
