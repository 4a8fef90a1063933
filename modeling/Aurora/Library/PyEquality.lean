import Aurora.Library.PyValue
import Mathlib.Data.List.Perm.Basic

namespace PyValue

open PyText

section Matching

variable {α β : Type} {Clash : α → α → Prop} {Match : α → β → Prop}

theorem exists_perm_of_matches {items : List α} {others : List β}
    (clash : ∀ first ∈ items, ∀ second ∈ items, ∀ other ∈ others, Match first other → Match second other →
      Clash first second)
    (distinct : items.Pairwise fun first second => ¬ Clash first second) (length : items.length = others.length)
    (each : ∀ item ∈ items, ∃ other ∈ others, Match item other) :
    ∃ middle, middle.Perm others ∧ List.Forall₂ Match items middle := by
  induction items generalizing others with
  | nil => exact ⟨[], by rw [List.eq_nil_of_length_eq_zero length.symm], .nil⟩
  | cons item items ih =>
    obtain ⟨⟨other, member, paired⟩, each⟩ := List.forall_mem_cons.mp each
    obtain ⟨apart, distinct⟩ := List.pairwise_cons.mp distinct
    obtain ⟨before, after, rfl⟩ := List.append_of_mem member
    have left : ∀ second ∈ items, ∃ third ∈ before ++ after, Match second third := by
      intro second listed
      obtain ⟨third, member', paired'⟩ := each second listed
      have different : third ≠ other := by
        rintro rfl
        exact apart second listed (clash item List.mem_cons_self second (List.mem_cons_of_mem _ listed) third member
          paired paired')
      refine ⟨third, ?_, paired'⟩
      simpa [different] using member'
    have clash' : ∀ first ∈ items, ∀ second ∈ items, ∀ third ∈ before ++ after, Match first third →
        Match second third → Clash first second := by
      intro first listed second listed' third member'
      refine clash first (List.mem_cons_of_mem _ listed) second (List.mem_cons_of_mem _ listed') third ?_
      rcases List.mem_append.mp member' with member' | member'
      · simp [member']
      · simp [member']
    obtain ⟨middle, perm, matched⟩ := ih clash' distinct (by simp at length ⊢; omega) left
    exact ⟨other :: middle, (perm.cons other).trans List.perm_middle.symm, .cons paired matched⟩

theorem forall₂_of_common {Same : α → α → Prop} {items others thirds : List α}
    (common : ∀ third ∈ thirds, ∀ item ∈ items, ∀ other ∈ others, Same item third → Same other third → Same item other)
    (first : List.Forall₂ Same items thirds) (second : List.Forall₂ Same others thirds) :
    List.Forall₂ Same items others := by
  induction first generalizing others with
  | nil =>
    cases second
    exact .nil
  | cons paired matched ih =>
    cases second with
    | cons paired' matched' =>
      exact .cons (common _ List.mem_cons_self _ List.mem_cons_self _ List.mem_cons_self paired paired')
        (ih (fun third member item member' other member'' => common third (List.mem_cons_of_mem _ member) item
          (List.mem_cons_of_mem _ member') other (List.mem_cons_of_mem _ member'')) matched')

theorem exists_match_of_perm {items : List α} {others middle : List β} (perm : middle.Perm others)
    (matched : List.Forall₂ Match items middle) {other : β} (member : other ∈ others) :
    ∃ item ∈ items, Match item other := by
  have listed := perm.mem_iff.mpr member
  clear perm member
  induction matched with
  | nil => cases listed
  | cons paired matched ih =>
    rcases List.mem_cons.mp listed with rfl | later
    · exact ⟨_, List.mem_cons_self, paired⟩
    · obtain ⟨item, member, paired⟩ := ih later
      exact ⟨item, List.mem_cons_of_mem _ member, paired⟩

end Matching

variable {F : Type} [DecidableEq F] {python : Interpreter F}

theorem Number.same_of_common {first second third : Number F} (left : first.same python third = true)
    (right : second.same python third = true) : first.same python second = true := by
  simp only [Number.same, Bool.or_eq_true, Bool.and_eq_true, decide_eq_true_eq] at left right ⊢
  rcases left with rfl | ⟨known, left⟩
  · rcases right with rfl | ⟨known, right⟩
    · exact .inl rfl
    · exact .inr ⟨right ▸ known, right.symm⟩
  · rcases right with rfl | ⟨-, right⟩
    · exact .inr ⟨known, left⟩
    · exact .inr ⟨known, left.trans right.symm⟩

theorem Atom.same_iff {first second : Atom F} : first.same python second = true ↔
    first = second ∨ ∃ left right, first = .number left ∧ second = .number right ∧ left.same python right = true := by
  cases first <;> cases second <;> simp [Atom.same]
  rintro rfl
  simp [Number.same]

theorem Atom.same_of_common {first second third : Atom F} (left : first.same python third = true)
    (right : second.same python third = true) : first.same python second = true := by
  rw [same_iff] at left right
  rcases left with rfl | ⟨number, last, rfl, rfl, left⟩
  · rcases right with rfl | ⟨number, last, rfl, rfl, right⟩
    · exact same_iff.mpr (.inl rfl)
    · have left : last.same python last = true := by simp [Number.same]
      exact Number.same_of_common left right
  · rcases right with rfl | ⟨number', last', rfl, same, right⟩
    · exact left
    · obtain rfl := Atom.number.inj same
      exact Number.same_of_common left right

namespace Value

/-- A value as Python builds it: no set has an element twice, no dict or object a key twice. It has no frozenset in
    it. -/
inductive Proper (python : Interpreter F) : Value F → Prop
  | atom (value : Atom F) : Proper python (.atom value)
  | list {items : List (Value F)} (each : ∀ item ∈ items, Proper python item) : Proper python (.list items)
  | tuple {items : List (Value F)} (each : ∀ item ∈ items, Proper python item) : Proper python (.tuple items)
  | set {items : List (Value F)} (each : ∀ item ∈ items, Proper python item)
      (distinct : items.Pairwise fun first second => ¬ same python first second = true) : Proper python (.set items)
  | dict {entries : List (Text × Value F)} (each : ∀ entry ∈ entries, Proper python entry.2)
      (keys : (entries.map Prod.fst).Nodup) : Proper python (.dict entries)
  | object {cls : Text} {fields : List (Text × Value F)} (each : ∀ field ∈ fields, Proper python field.2)
      (keys : (fields.map Prod.fst).Nodup) : Proper python (.object cls fields)

variable {value : Value F} {items others : List (Value F)} {entries others' : List (Text × Value F)}

/-- Two entries with one key, whose values are equal. -/
def SameEntry (python : Interpreter F) (entry other : Text × Value F) : Prop :=
  entry.1 = other.1 ∧ same python entry.2 other.2 = true

theorem exists_perm_entries (keys : (entries.map Prod.fst).Nodup) (length : entries.length = others'.length)
    (each : sameEntries python entries others' = true) :
    ∃ middle, middle.Perm others' ∧ List.Forall₂ (SameEntry python) entries middle :=
  exists_perm_of_matches (fun _ _ _ _ _ _ paired paired' => paired.1.trans paired'.1.symm) (List.pairwise_map.mp keys)
    length ((sameEntries_iff python entries others').mp each)

theorem sameEntries_of_common {thirds : List (Text × Value F)} (keys : (others'.map Prod.fst).Nodup)
    (common : ∀ third ∈ thirds, ∀ entry ∈ entries, ∀ other ∈ others', same python entry.2 third.2 = true →
      same python other.2 third.2 = true → same python entry.2 other.2 = true)
    (length : others'.length = thirds.length) (first : sameEntries python entries thirds = true)
    (second : sameEntries python others' thirds = true) : sameEntries python entries others' = true := by
  rw [sameEntries_iff] at first ⊢
  obtain ⟨middle, perm, matched⟩ := exists_perm_entries keys length second
  intro entry member
  obtain ⟨third, member', key, equal⟩ := first entry member
  obtain ⟨other, member'', key', equal'⟩ := exists_match_of_perm perm matched member'
  exact ⟨other, member'', key.trans key'.symm, common third member' entry member other member'' equal equal'⟩

theorem same_of_common {first second third : Value F} (proper : Proper python first) (proper' : Proper python second)
    (proper'' : Proper python third) (left : same python first third = true) (right : same python second third = true) :
    same python first second = true := by
  induction proper'' generalizing first second with
  | atom value =>
    cases proper <;> simp only [same, Bool.false_eq_true] at left
    cases proper' <;> simp only [same, Bool.false_eq_true] at right
    rw [same]
    exact Atom.same_of_common left right
  | @list thirds each ih =>
    cases proper <;> simp only [same, Bool.false_eq_true] at left
    rename_i items proper
    cases proper' <;> simp only [same, Bool.false_eq_true] at right
    rename_i others proper'
    rw [sameEach_iff] at left right
    rw [same, sameEach_iff]
    exact forall₂_of_common (fun third member item listed other listed' => ih third member (proper item listed)
      (proper' other listed')) left right
  | @tuple thirds each ih =>
    cases proper <;> simp only [same, Bool.false_eq_true] at left
    rename_i items proper
    cases proper' <;> simp only [same, Bool.false_eq_true] at right
    rename_i others proper'
    rw [sameEach_iff] at left right
    rw [same, sameEach_iff]
    exact forall₂_of_common (fun third member item listed other listed' => ih third member (proper item listed)
      (proper' other listed')) left right
  | @set thirds each distinct ih =>
    cases proper <;> simp only [same, Bool.false_eq_true] at left
    rename_i items proper _
    cases proper' <;> simp only [same, Bool.false_eq_true] at right
    rename_i others proper' distinct'
    simp only [Bool.and_eq_true, beq_iff_eq, sameAmong_iff] at left right
    have clash : ∀ other ∈ others, ∀ other' ∈ others, ∀ third ∈ thirds, same python other third = true →
        same python other' third = true → same python other other' = true :=
      fun other listed other' listed' third member => ih third member (proper' other listed) (proper' other' listed')
    obtain ⟨middle, perm, matched⟩ := exists_perm_of_matches clash distinct' right.1 right.2
    rw [same, Bool.and_eq_true, beq_iff_eq, sameAmong_iff]
    refine ⟨left.1.trans right.1.symm, fun item listed => ?_⟩
    obtain ⟨third, member, equal⟩ := left.2 item listed
    obtain ⟨other, listed', equal'⟩ := exists_match_of_perm perm matched member
    exact ⟨other, listed', ih third member (proper item listed) (proper' other listed') equal equal'⟩
  | @dict thirds each keys ih =>
    cases proper <;> simp only [same, Bool.false_eq_true] at left
    rename_i entries proper _
    cases proper' <;> simp only [same, Bool.false_eq_true] at right
    rename_i others proper' keys'
    simp only [Bool.and_eq_true, beq_iff_eq] at left right
    rw [same, Bool.and_eq_true, beq_iff_eq]
    exact ⟨left.1.trans right.1.symm, sameEntries_of_common keys' (fun third member entry listed other listed' =>
      ih third member (proper entry listed) (proper' other listed')) right.1 left.2 right.2⟩
  | @object cls thirds each keys ih =>
    cases proper <;> simp only [same, Bool.false_eq_true] at left
    rename_i fields proper _
    cases proper' <;> simp only [same, Bool.false_eq_true] at right
    rename_i others proper' keys'
    simp only [Bool.and_eq_true, beq_iff_eq] at left right
    rw [same, Bool.and_eq_true, Bool.and_eq_true, beq_iff_eq, beq_iff_eq]
    exact ⟨⟨left.1.1.trans right.1.1.symm, left.1.2.trans right.1.2.symm⟩, sameEntries_of_common keys'
      (fun third member field listed other listed' => ih third member (proper field listed) (proper' other listed'))
      right.1.2 left.2 right.2⟩

theorem exists_perm_items (proper : ∀ item ∈ items, Proper python item) (proper' : ∀ other ∈ others, Proper python other)
    (distinct : items.Pairwise fun first second => ¬ same python first second = true)
    (length : items.length = others.length) (each : sameAmong python items others = true) :
    ∃ middle, middle.Perm others ∧ List.Forall₂ (fun item other => same python item other = true) items middle :=
  exists_perm_of_matches (fun first listed second listed' other member => same_of_common (proper first listed)
    (proper second listed') (proper' other member)) distinct length ((sameAmong_iff python items others).mp each)

end Value

end PyValue
