import Worksheet.Session.Key

/-!
# What keys ask for

Two actions are special to an editor, confirming and cancelling. Here it is said which key presses
ask for them, by the names of the keys.

## Main results

* `Key.ofName_eq_enter_iff`, `Key.ofName_eq_escape_iff` — the names of two keys
* `Action.ofKey_eq_confirm_iff`, `Action.ofKey_eq_cancel_iff` — what confirms and what cancels
* `Action.ofKey_shortcut` — what a letter asks for with the control or the command key
-/

namespace Worksheet

namespace Key

variable {name : String}

theorem ofName_eq_enter_iff : ofName name = .enter ↔ name = "Enter" := by
  constructor
  · intro h
    unfold ofName at h
    split at h
    case h_5 => rfl
    case h_10 => split at h <;> cases h
    all_goals cases h
  · rintro rfl
    rfl

theorem ofName_eq_escape_iff : ofName name = .escape ↔ name = "Escape" ∨ name = "Esc" := by
  constructor
  · intro h
    unfold ofName at h
    split at h
    case h_6 => exact .inl rfl
    case h_7 => exact .inr rfl
    case h_10 => split at h <;> cases h
    all_goals cases h
  · rintro (rfl | rfl) <;> rfl

/-- Every key has a name. -/
theorem exists_ofName (key : Key) : ∃ name, ofName name = key := by
  cases key with
  | arrow d =>
    cases d with
    | up => exact ⟨"ArrowUp", rfl⟩
    | down => exact ⟨"ArrowDown", rfl⟩
    | left => exact ⟨"ArrowLeft", rfl⟩
    | right => exact ⟨"ArrowRight", rfl⟩
  | enter => exact ⟨"Enter", rfl⟩
  | escape => exact ⟨"Escape", rfl⟩
  | delete => exact ⟨"Delete", rfl⟩
  | char c =>
    refine ⟨String.ofList [c], ?_⟩
    unfold ofName
    split
    case h_10 => simp
    -- the names of the other keys have more than one character
    all_goals
      rename_i h
      simpa using congrArg String.toList h
  | other => exact ⟨"", rfl⟩

end Key

theorem Modifiers.noneHeld_eq_true {m : Modifiers} : m.noneHeld = true ↔ m = .none := by
  obtain ⟨shift, control, alt, command⟩ := m
  cases shift <;> cases control <;> cases alt <;> cases command <;> decide

namespace Action

variable {key : Key} {m : Modifiers}

/-- An action that closes an editor. -/
def EndsEditing (action : Action) : Prop := action = .confirm ∨ action = .cancel

theorem not_endsEditing_ofKey_arrow (d : Direction) (m : Modifiers) :
    ¬ (ofKey (.arrow d) m).EndsEditing := by
  simp only [ofKey, EndsEditing]
  repeat' split
  all_goals simp

theorem not_endsEditing_ofKey_char (c : Char) (m : Modifiers) :
    ¬ (ofKey (.char c) m).EndsEditing := by
  simp only [ofKey, EndsEditing]
  repeat' split
  all_goals simp

theorem ofKey_eq_confirm_iff : ofKey key m = .confirm ↔ key = .enter ∧ m = .none := by
  rw [← Modifiers.noneHeld_eq_true]
  cases key with
  | enter => simp [ofKey]
  | arrow d =>
    simp only [reduceCtorEq, false_and, iff_false]
    exact fun h => not_endsEditing_ofKey_arrow d m (.inl h)
  | char c =>
    simp only [reduceCtorEq, false_and, iff_false]
    exact fun h => not_endsEditing_ofKey_char c m (.inl h)
  | escape | delete | other => simp [ofKey]

theorem ofKey_eq_cancel_iff : ofKey key m = .cancel ↔ key = .escape := by
  cases key with
  | escape => simp [ofKey]
  | arrow d =>
    simp only [reduceCtorEq, iff_false]
    exact fun h => not_endsEditing_ofKey_arrow d m (.inr h)
  | char c =>
    simp only [reduceCtorEq, iff_false]
    exact fun h => not_endsEditing_ofKey_char c m (.inr h)
  | enter =>
    simp only [ofKey, reduceCtorEq, iff_false]
    split <;> simp
  | delete | other => simp [ofKey]

/-- With the control or the command key, the usual letters ask for the usual actions, whether they
are small or capital. -/
theorem ofKey_shortcut (hm : m.controlOrCommand = true) :
    (∀ name ∈ ["c", "C"], ofKey (.ofName name) m = .copy) ∧
    (∀ name ∈ ["x", "X"], ofKey (.ofName name) m = .cut) ∧
    (∀ name ∈ ["v", "V"], ofKey (.ofName name) m = .paste) := by
  simp [ofKey, hm, Key.ofName]

end Action

end Worksheet
