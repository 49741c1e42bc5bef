import ScreenCompare.Matching.Rule
import ScreenCompare.Proofs.Descriptor.Single

/-!
# Medians by counting

The total order puts the values that are not numbers and carry a sign first, then
the numbers in order, then all others.  So the entries of a sorted list that come
first, and those that come first or are within the limit, stand at its beginning,
and whether the median passes is decided by how many there are (`passes_iff`).
-/

namespace ScreenCompare

/-! ## Entries at the beginning of a list -/

theorem countP_eq_zero_of_head
    {α : Type} {property : α → Bool} {head : α} {rest : List α}
    (first : (head :: rest).Pairwise fun earlier later =>
      property later = true → property earlier = true)
    (fails : property head = false) : rest.countP property = 0 := by
  rw [List.countP_eq_zero]
  intro entry member holds
  have headHolds := (List.pairwise_cons.1 first).1 entry member holds
  rw [fails] at headHolds
  cases headHolds

/--
If the entries with a property stand at the beginning of a list, their number
tells which places they have.
-/
theorem holds_iff_lt_countP
    {α : Type} {property : α → Bool} {entries : List α}
    (first : entries.Pairwise fun earlier later =>
      property later = true → property earlier = true)
    {place : Nat} {entry : α} (found : entries[place]? = some entry) :
    property entry = true ↔ place < entries.countP property := by
  induction entries generalizing place with
  | nil => cases found
  | cons head rest inductionHypothesis =>
      have later := (List.pairwise_cons.1 first).2
      cases holds : property head with
      | true =>
          rw [List.countP_cons_of_pos holds]
          cases place with
          | zero =>
              rw [List.getElem?_cons_zero, Option.some.injEq] at found
              exact iff_of_true (found ▸ holds) (Nat.succ_pos _)
          | succ place =>
              rw [inductionHypothesis later found]
              exact (Nat.add_lt_add_iff_right).symm
      | false =>
          have none := countP_eq_zero_of_head first holds
          rw [List.countP_cons_of_neg (by simp [holds]), none]
          refine iff_of_false ?_ (Nat.not_lt_zero place)
          cases place with
          | zero =>
              rw [List.getElem?_cons_zero, Option.some.injEq] at found
              simp [← found, holds]
          | succ place =>
              rw [inductionHypothesis later found, none]
              exact Nat.not_lt_zero place

theorem countP_or_of_disjoint
    {α : Type} {first second : α → Bool} (entries : List α)
    (disjoint : ∀ entry, first entry = true → second entry = false) :
    entries.countP (fun entry => first entry || second entry) =
      entries.countP first + entries.countP second := by
  induction entries with
  | nil => rfl
  | cons entry rest inductionHypothesis =>
      rw [List.countP_cons, List.countP_cons, List.countP_cons,
        inductionHypothesis]
      cases holds : first entry with
      | true =>
          rw [disjoint entry holds]
          simp only [Bool.or_false, if_true, Bool.false_eq_true, if_false]
          omega
      | false =>
          simp only [Bool.false_or, Bool.false_eq_true, if_false]
          omega

/-! ## Values that come first -/

namespace Single

/-- The value is not a number and carries a sign. -/
def comesFirst (single : Single) : Bool :=
  single.isNegative && single.value.isNaN

theorem comesFirst_iff {single : Single} :
    single.comesFirst = true ↔
      single.isNegative = true ∧ ¬ single.IsNumber := by
  rw [comesFirst, Bool.and_eq_true, IsNumber, Bool.not_eq_false]

theorem comesFirst_iff_rank {single : Single} :
    single.comesFirst = true ↔ single.rank < -1 - 255 * 2 ^ 23 := by
  rw [comesFirst_iff, isNumber_iff, rank_eq]
  split
  · next negative =>
      simp only [negative, true_and]
      omega
  · next positive =>
      simp only [positive, Bool.false_eq_true, false_and, false_iff]
      omega

theorem comesFirst_of_rank_le {first second : Single}
    (ranks : first.rank ≤ second.rank) (comes : second.comesFirst = true) :
    first.comesFirst = true := by
  rw [comesFirst_iff_rank] at comes ⊢
  omega

/-- What is in total order before a number is a number or comes first. -/
theorem comesFirst_or_isNumber_of_rank_le {first second : Single}
    (ranks : first.rank ≤ second.rank) (number : second.IsNumber) :
    first.comesFirst = true ∨ first.IsNumber := by
  rw [comesFirst_iff_rank, isNumber_iff]
  rw [isNumber_iff] at number
  rw [rank_eq, rank_eq second] at ranks
  rw [rank_eq]
  split at ranks <;> split at ranks <;> simp_all <;> omega

end Single

/-! ## Passing -/

theorem pairwise_sortDistances (distances : List Single) :
    (sortDistances distances).Pairwise fun first second =>
      first.rank ≤ second.rank := by
  have sorted : (sortDistances distances).Pairwise fun first second =>
      first.totalOrder second = true := by
    apply List.pairwise_mergeSort
    · intro first second third
      simp only [Single.totalOrder, decide_eq_true_eq]
      exact Int.le_trans
    · intro first second
      simp only [Single.totalOrder, Bool.or_eq_true, decide_eq_true_eq]
      exact Int.le_total _ _
  exact sorted.imp fun ordered => of_decide_eq_true ordered

namespace MatchRule

/-- A distance does not exceed the limit. -/
def allows (rule : MatchRule) (distance : Single) : Bool :=
  decide (distance.value ≤ rule.maxDistance.value)

variable {rule : MatchRule}

theorem allows_eq_false_of_comesFirst (distance : Single)
    (comes : distance.comesFirst = true) : rule.allows distance = false := by
  apply decide_eq_false
  intro within
  exact (Single.comesFirst_iff.1 comes).2 (Single.value_le_iff.1 within).1

theorem comesFirst_or_allows_of_rank_le {first second : Single}
    (ranks : first.rank ≤ second.rank)
    (early : (second.comesFirst || rule.allows second) = true) :
    (first.comesFirst || rule.allows first) = true := by
  rw [Bool.or_eq_true] at early ⊢
  rcases early with comes | within
  · exact .inl (Single.comesFirst_of_rank_le ranks comes)
  · have limit := of_decide_eq_true within
    have laterNumber := (Single.value_le_iff.1 limit).1
    rcases Single.comesFirst_or_isNumber_of_rank_le ranks laterNumber with
      comes | number
    · exact .inl comes
    · have below := Single.value_le_of_rank_le number laterNumber ranks
      exact .inr (decide_eq_true (Single.value_le_trans below limit))

/--
The median passes if at most half of the distances come first, and more than half
of them come first or are within the limit.
-/
theorem passes_iff {distances : List Single} :
    rule.passes distances = true ↔
      2 * distances.countP Single.comesFirst ≤ distances.length ∧
        distances.length < 2 * (distances.countP Single.comesFirst +
          distances.countP rule.allows) := by
  have permutation : (sortDistances distances).Perm distances :=
    List.mergeSort_perm _ _
  have ordered := pairwise_sortDistances distances
  have initial : (sortDistances distances).Pairwise fun first second =>
      (second.comesFirst || rule.allows second) = true →
        (first.comesFirst || rule.allows first) = true :=
    ordered.imp fun ranks => comesFirst_or_allows_of_rank_le ranks
  rw [passes, median?]
  cases found : (sortDistances distances)[distances.length / 2]? with
  | none =>
      rw [List.getElem?_eq_none_iff, permutation.length_eq] at found
      have empty : distances = [] := List.eq_nil_of_length_eq_zero (by omega)
      simp [empty]
  | some median =>
      have comes := holds_iff_lt_countP
        (ordered.imp Single.comesFirst_of_rank_le) found
      have early := holds_iff_lt_countP initial found
      rw [countP_or_of_disjoint _ allows_eq_false_of_comesFirst] at early
      simp only [permutation.countP_eq] at comes early
      have only := @allows_eq_false_of_comesFirst rule median
      change rule.allows median = true ↔ _
      rw [Bool.or_eq_true] at early
      constructor
      · intro within
        have bound := early.1 (.inr within)
        have notFirst : ¬ median.comesFirst = true := by
          intro first
          rw [only first] at within
          cases within
        rw [comes] at notFirst
        omega
      · rintro ⟨half, most⟩
        rcases early.2 (by omega) with first | within
        · have := comes.1 first
          omega
        · exact within

/-- Whether the median passes does not depend on the order of the distances. -/
theorem passes_eq_of_perm {distances others : List Single}
    (permutation : distances.Perm others) :
    rule.passes distances = rule.passes others := by
  rw [Bool.eq_iff_iff, passes_iff, passes_iff]
  simp only [permutation.countP_eq, permutation.length_eq]

/--
The median of distances that are numbers passes if more than half of them are
within the limit.
-/
theorem passes_iff_of_isNumber {distances : List Single}
    (numbers : ∀ distance ∈ distances, distance.IsNumber) :
    rule.passes distances = true ↔
      distances.length < 2 * distances.countP rule.allows := by
  have none : distances.countP Single.comesFirst = 0 := by
    rw [List.countP_eq_zero]
    intro distance member first
    exact (Single.comesFirst_iff.1 first).2 (numbers distance member)
  rw [passes_iff, none, Nat.zero_add]
  exact and_iff_right (Nat.zero_le _)

theorem passes_of_forall_allows {distances : List Single}
    (nonempty : distances ≠ [])
    (within : ∀ distance ∈ distances, rule.allows distance = true) :
    rule.passes distances = true := by
  have all : distances.countP rule.allows = distances.length :=
    List.countP_eq_length.2 within
  have none : distances.countP Single.comesFirst = 0 := by
    rw [List.countP_eq_zero]
    intro distance member first
    have beyond := @allows_eq_false_of_comesFirst rule distance first
    rw [within distance member] at beyond
    cases beyond
  have := List.length_pos_iff.2 nonempty
  rw [passes_iff]
  omega

end MatchRule

end ScreenCompare
