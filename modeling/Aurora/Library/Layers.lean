import Mathlib.Logic.Relation
import Mathlib.Order.WellFounded

/-! Items placed at levels, put in order by the levels and by a relation of their own. -/

namespace Layers

open Relation

variable {α : Type}

/-- Everything at a level comes right before everything at the next one. -/
def Linked (At : Nat → α → Prop) (first second : α) : Prop := ∃ level, At level first ∧ At (level + 1) second

def Combined (At : Nat → α → Prop) (Listed : α → α → Prop) (first second : α) : Prop :=
  Listed first second ∨ Linked At first second

/-- Everything at a level comes before everything at every higher one. -/
def Sequential (At : Nat → α → Prop) (Edge : α → α → Prop) : Prop :=
  ∀ low high first second, low < high → At low first → At high second → TransGen Edge first second

/-- Levels with nothing but empty levels between them are in order without the links. -/
def Bridged (At : Nat → α → Prop) (Listed : α → α → Prop) : Prop :=
  ∀ low high first second, low + 1 < high → (∀ level item, low < level → level < high → ¬ At level item) →
    At low first → At high second → TransGen Listed first second

section Levels

variable {At : Nat → α → Prop} {Listed : α → α → Prop} {low high : Nat} {first second : α}

/-- An item that lies on a path between two others has a level between theirs. -/
theorem level_between (acyclic : ∀ item, ¬ TransGen (Combined At Listed) item item)
    (sequential : Sequential At (Combined At Listed)) {level : Nat} {item : α} (atLow : At low first)
    (atHigh : At high second) (placed : At level item) (before : TransGen (Combined At Listed) first item)
    (after : ReflTransGen (Combined At Listed) item second) : low ≤ level ∧ level ≤ high := by
  constructor
  · by_contra below
    exact acyclic first (before.trans (sequential level low item first (by omega) placed atLow))
  · by_contra above
    have back := sequential high level second item (by omega) atHigh placed
    exact acyclic item (back.trans_right after)

/-- A path across empty levels does without the links. -/
theorem listed_of_path (unique : ∀ item level other, At level item → At other item → level = other)
    (acyclic : ∀ item, ¬ TransGen (Combined At Listed) item item) (sequential : Sequential At (Combined At Listed))
    (apart : low + 1 < high) (empty : ∀ level item, low < level → level < high → ¬ At level item)
    (atLow : At low first) (atHigh : At high second) {item : α} (path : TransGen (Combined At Listed) first item)
    (rest : ReflTransGen (Combined At Listed) item second) : TransGen Listed first item := by
  induction path with
  | single edge =>
    rename_i item
    rcases edge with listed | ⟨level, atLevel, atNext⟩
    · exact .single listed
    · have same := unique first level low atLevel atLow
      exact absurd atNext (empty (level + 1) item (by omega) (by omega))
  | tail path edge ih =>
    rename_i middle item
    have middle_path := ih (.head edge rest)
    rcases edge with listed | ⟨level, atLevel, atNext⟩
    · exact middle_path.tail listed
    · exfalso
      have link : Combined At Listed middle item := .inr ⟨level, atLevel, atNext⟩
      have fromMiddle := level_between acyclic sequential atLow atHigh atLevel path (.head link rest)
      have fromItem := level_between acyclic sequential atLow atHigh atNext (path.tail link) rest
      by_cases lowest : level = low
      · exact empty (level + 1) item (by omega) (by omega) atNext
      · exact empty level middle (by omega) (by omega) atLevel

theorem sequential_of_bridged (bridged : Bridged At Listed) : Sequential At (Combined At Listed) := by
  intro low high first second less atLow atHigh
  induction gap : high - low using Nat.strongRecOn generalizing low high first second with
  | _ gap ih =>
    by_cases next : low + 1 = high
    · subst next
      exact .single (.inr ⟨low, atLow, atHigh⟩)
    · by_cases occupied : ∃ level item, low < level ∧ level < high ∧ At level item
      · obtain ⟨level, item, above, below, placed⟩ := occupied
        have there := ih (level - low) (by omega) low level first item above atLow placed rfl
        exact there.trans (ih (high - level) (by omega) level high item second below placed atHigh rfl)
      · have empty : ∀ level item, low < level → level < high → ¬ At level item :=
          fun level item above below placed => occupied ⟨level, item, above, below, placed⟩
        have path := bridged low high first second (by omega) empty atLow atHigh
        exact TransGen.mono (fun _ _ => Or.inl) _ _ path

/-- The links and the listed pairs put the levels in order just where the listed pairs bridge the gaps. -/
theorem sequential_iff (unique : ∀ item level other, At level item → At other item → level = other)
    (acyclic : ∀ item, ¬ TransGen (Combined At Listed) item item) :
    Sequential At (Combined At Listed) ↔ Bridged At Listed := by
  constructor
  · intro sequential low high first second apart empty atLow atHigh
    have path := sequential low high first second (by omega) atLow atHigh
    exact listed_of_path unique acyclic sequential apart empty atLow atHigh path .refl
  · exact sequential_of_bridged

theorem path_within (unique : ∀ item level other, At level item → At other item → level = other)
    (acyclic : ∀ item, ¬ TransGen (Combined At Listed) item item) (sequential : Sequential At (Combined At Listed))
    (known : ∀ first second, Combined At Listed first second → ∃ level, At level second) {level : Nat}
    (atFirst : At level first) (atSecond : At level second) {item : α} (path : TransGen (Combined At Listed) first item)
    (rest : ReflTransGen (Combined At Listed) item second) :
    At level item ∧ TransGen (fun before after => Listed before after ∧ At level before ∧ At level after) first item := by
  have stays : ∀ item, TransGen (Combined At Listed) first item → ReflTransGen (Combined At Listed) item second →
      At level item := by
    intro item path rest
    obtain ⟨other, placed⟩ : ∃ level, At level item := by
      cases path with
      | single edge => exact known _ _ edge
      | tail _ edge => exact known _ _ edge
    have between := level_between acyclic sequential atFirst atSecond placed path rest
    have same : other = level := by omega
    rwa [← same]
  have listed : ∀ before after, Combined At Listed before after → At level before → At level after →
      Listed before after ∧ At level before ∧ At level after := by
    intro before after edge placed next
    rcases edge with edge | ⟨other, atOther, atNext⟩
    · exact ⟨edge, placed, next⟩
    · have same := unique before other level atOther placed
      have beyond := unique after (other + 1) level atNext next
      omega
  induction path with
  | single edge =>
    have placed := stays _ (.single edge) rest
    exact ⟨placed, .single (listed _ _ edge atFirst placed)⟩
  | tail path edge ih =>
    obtain ⟨before, middle_path⟩ := ih (.head edge rest)
    have placed := stays _ (path.tail edge) rest
    exact ⟨placed, middle_path.tail (listed _ _ edge before placed)⟩

end Levels

end Layers
