import Worksheet.Proofs.Session.Key
import Worksheet.Proofs.Workbook.OnGrid

/-!
# While a cell is being edited

A key press looks whether a cell is being edited: if so, every key but Enter and Escape belongs to
the editor. Copying, cutting and pasting on request do not look, and yet the text that is being
typed is as safe from them. What protects it is that nothing is selected while a cell is being
edited (`Workbook.exclusive_run`), and that without a selection only confirming and cancelling do
anything (`Session.act_of_deselected`).

So on a workbook that a run leads to, the look at the editor makes no difference: a key press does
the action that the key asks for (`Workbook.press_eq_act`). From this follows both what can happen
to a text that is being typed, and that a key does the same as the request it stands for.

## Main definitions

* `Session.Exclusive` — not both a selection and an editor
* `Command.Stores` — the commands that store what the editor shows
* `Command.Discards` — the commands that give it up
* `Command.Ignored` — the commands that belong to the editor or need a selection
* `Workbook.EditingStep` — what a command does while a cell is being edited
* `Workbook.KeysAgree` — keys do what the requests do that they stand for

## Main results

* `Workbook.exclusive_run` — selecting and editing exclude each other
* `Workbook.editingStep_run` — a typed text is stored, given up on request, or still in the editor
* `Workbook.keysAgree_run` — keys and requests agree
-/

namespace Worksheet

/-! ### Selecting and editing -/

namespace Session

variable {g : Grid} {s s' : Session}

/-- Nothing is being edited or nothing is selected. -/
def Exclusive (s : Session) : Prop := s.editor = none ∨ s.selection = none

theorem Exclusive.change (hchange : Change g s s') (h : s.Exclusive) : s'.Exclusive := by
  cases hchange with
  | close => exact .inl rfl
  | type text =>
    rcases h with hclosed | hfree
    · left
      show s.editor.update text = none
      rw [hclosed]
      rfl
    · exact .inr hfree
  | deselect => exact .inr rfl
  | select c r hgrid hregion hfree =>
    rcases hfree with hclosed | hselected
    · exact .inl hclosed
    · exact .inl (h.resolve_right hselected)
  | openCell c text hgrid => exact .inr rfl
  | remember r cut hselected => exact h
  | forget => exact h

theorem Exclusive.deselected {edit : Edit} (h : s.Exclusive) (hedit : s.editor = some edit) :
    s.selection = none := by
  refine h.resolve_left ?_
  rw [hedit]
  exact Option.some_ne_none edit

/-- Without a selection, only confirming and cancelling do anything. -/
theorem act_of_deselected {action : Action} (hfree : s.selection = none)
    (haction : ¬ action.EndsEditing) : s.act g action = (.idle, s) := by
  cases action with
  | confirm => exact absurd (.inl rfl) haction
  | cancel => exact absurd (.inr rfl) haction
  | move d | extend d => simp [act, advance, Selection.advance?, hfree]
  | delete => simp [act, hfree]
  | copy | cut => simp [act, remember, hfree]
  | paste => cases hclip : s.clipboard <;> simp [act, paste, hfree, hclip]
  | ignore => rfl

/-- Without a selection, a click selects the cell. -/
theorem click_of_deselected {c : Coord} {shift : Bool} {textOf : Coord → String}
    (hfree : s.selection = none) :
    s.click c shift textOf = (.selected (.single c), { s with selection := some (.single c) }) := by
  simp [click, Selection.click, hfree]

end Session

/-! ### Commands, from an open editor's point of view -/

namespace Command

/-- The commands that store what the editor shows. A click does so before anything else, wherever
it is on the grid. -/
inductive Stores (g : Grid) : Command → Prop
  | confirm : Stores g (.press .enter .none)
  | commit : Stores g .commit
  | click (c : Coord) (shift : Bool) (hgrid : g.contains c = true) : Stores g (.click c shift)

/-- The commands that give up what the editor shows. -/
inductive Discards : Command → Prop
  | escape (name : String) (m : Modifiers) (hname : name = "Escape" ∨ name = "Esc") :
      Discards (.press (.ofName name) m)
  | cancelEdit : Discards .cancelEdit

/-- The commands that leave an open editor alone, and everything else with it: the other keys,
clicks off the grid, and what needs a selection. -/
inductive Ignored (g : Grid) : Command → Prop
  | press (name : String) (m : Modifiers) (hconfirm : ¬ (name = "Enter" ∧ m = .none))
      (hcancel : ¬ (name = "Escape" ∨ name = "Esc")) : Ignored g (.press (.ofName name) m)
  | click (c : Coord) (shift : Bool) (hgrid : ¬ g.contains c = true) : Ignored g (.click c shift)
  | copy : Ignored g .copy
  | cut : Ignored g .cut
  | paste : Ignored g .paste

variable {g : Grid} {key : Key} {m : Modifiers} {c : Coord} {shift : Bool}

theorem stores_press_iff : Stores g (.press key m) ↔ key = .enter ∧ m = .none := by
  constructor
  · rintro ⟨⟩
    exact ⟨rfl, rfl⟩
  · rintro ⟨rfl, rfl⟩
    exact .confirm

theorem stores_click_iff : Stores g (.click c shift) ↔ g.contains c = true := by
  constructor
  · rintro ⟨⟩
    assumption
  · exact .click c shift

theorem discards_press_iff : Discards (.press key m) ↔ key = .escape := by
  obtain ⟨name, rfl⟩ := key.exists_ofName
  rw [Key.ofName_eq_escape_iff]
  constructor
  · intro h
    generalize hk : Key.ofName name = k at h
    cases h with
    | escape other m hother => rwa [← Key.ofName_eq_escape_iff, hk, Key.ofName_eq_escape_iff]
  · exact .escape name m

theorem ignored_press_iff :
    Ignored g (.press key m) ↔ ¬ (key = .enter ∧ m = .none) ∧ key ≠ .escape := by
  obtain ⟨name, rfl⟩ := key.exists_ofName
  constructor
  · intro h
    generalize hk : Key.ofName name = k at h ⊢
    cases h with
    | press other m hconfirm hcancel =>
      rw [Key.ofName_eq_enter_iff, Ne, Key.ofName_eq_escape_iff]
      exact ⟨hconfirm, hcancel⟩
  · rw [Key.ofName_eq_enter_iff, Ne, Key.ofName_eq_escape_iff]
    rintro ⟨hconfirm, hcancel⟩
    exact .press name m hconfirm hcancel

end Command

namespace Workbook

variable {w : Workbook} {c : Coord} {edit : Edit} {command : Command}

theorem exclusive_step (h : w.session.Exclusive) (command : Command) :
    (w.step command).2.session.Exclusive :=
  (session_step w command).preserves (fun _ _ hchange hs => hs.change hchange) h

/-- **Selecting and editing exclude each other.** -/
theorem exclusive_run (g : Grid) (commands : List Command) :
    ((blank g).run commands).session.Exclusive :=
  session_run (fun _ _ hchange hs => hs.change hchange) (.inl rfl) commands

/-! ### Actions and key presses -/

theorem act_of_deselected {action : Action} (hfree : w.session.selection = none)
    (haction : ¬ action.EndsEditing) : w.act action = (.idle, [], w) := by
  rw [act, Session.act_of_deselected hfree haction]
  rfl

/-- Where nothing is selected while a cell is being edited, a key press need not look at the
editor. -/
theorem press_eq_act (h : w.session.Exclusive) (key : Key) (m : Modifiers) :
    w.press key m = w.act (.ofKey key m) := by
  by_cases hends : (Action.ofKey key m).EndsEditing
  · rcases hends with hconfirm | hcancel
    · rw [press, actionOf, hconfirm]
    · rw [press, actionOf, hcancel]
  · have hactionOf : w.actionOf key m = if w.isEditing then .ignore else .ofKey key m := by
      unfold actionOf
      split
      · rename_i hconfirm
        exact absurd (.inl hconfirm) hends
      · rename_i hcancel
        exact absurd (.inr hcancel) hends
      · rfl
    rw [press, hactionOf]
    split
    · rename_i hediting
      obtain ⟨edit, hedit⟩ := Option.isSome_iff_exists.mp hediting
      have hfree := h.deselected hedit
      rw [act_of_deselected hfree hends, act_of_deselected hfree (by simp [Action.EndsEditing])]
    · rfl

/-! ### Storing -/

theorem commit_of_closed (h : w.session.editor = none) : w.commit.2.2 = w := by
  rw [commit, Session.commit, h]
  rfl

/-- A click on the grid is made on the workbook that is committed. -/
theorem click_of_contains (shift : Bool) (hgrid : w.grid.contains c = true) :
    w.click c shift =
      (some (w.commit.2.2.session.click c shift w.commit.2.2.editText).1,
        { w.commit.2.2 with
          session := (w.commit.2.2.session.click c shift w.commit.2.2.editText).2 }) := by
  rw [click, if_pos hgrid]

/-- The session has no part in what is stored. -/
theorem sheet_enter (w : Workbook) (s : Session) (c : Coord) (text : String) :
    ({ w with session := s }.enter c text).2.sheet = (w.enter c text).2.sheet := by
  rw [enter, enter]
  split <;> rfl

theorem sheet_commit (h : w.session.editor = some edit) :
    w.commit.2.2.sheet = (w.enter edit.cell edit.text).2.sheet := by
  rw [commit, Session.commit, h]
  exact sheet_enter w _ edit.cell edit.text

/-- Each of the commands that store leaves the sheet as committing does. -/
theorem sheet_step_of_stores (h : command.Stores w.grid) :
    (w.step command).2.sheet = w.commit.2.2.sheet := by
  cases h with
  | confirm => rfl
  | commit => rfl
  | click d shift hgrid =>
    show (w.click d shift).2.sheet = w.commit.2.2.sheet
    rw [click_of_contains shift hgrid]

/-- What stores the text closes the editor. -/
theorem editor_step_of_stores (hfree : w.session.selection = none) (h : command.Stores w.grid) :
    (w.step command).2.session.editor = none := by
  cases h with
  | confirm =>
    show w.commit.2.2.session.editor = none
    rw [session_commit]
  | commit =>
    show w.commit.2.2.session.editor = none
    rw [session_commit]
  | click c shift hgrid =>
    show (w.click c shift).2.session.editor = none
    have hstill : w.commit.2.2.session.selection = none := by rw [session_commit]; exact hfree
    rw [click_of_contains shift hgrid, Session.click_of_deselected hstill]
    show w.commit.2.2.session.editor = none
    rw [session_commit]

/-- It puts what the text means into the cell that is edited, unless the text is blank. -/
theorem get?_step_of_stores (hgrid : w.grid.contains edit.cell = true)
    (hedit : w.session.editor = some edit) (h : command.Stores w.grid) (c : Coord) :
    (w.step command).2.sheet.get? c =
      if c = edit.cell ∧ Text.allBlank edit.text = false then some (.ofEntry edit.text)
      else w.sheet.get? c := by
  rw [sheet_step_of_stores h, sheet_commit hedit, enter, hgrid]
  cases hblank : Text.allBlank edit.text with
  | true => simp
  | false => simp [withSheet, Sheet.get?_set]

/-! ### Giving up, and leaving alone -/

/-- What gives up the text closes the editor and does nothing else. -/
theorem step_of_discards (hedit : w.session.editor = some edit) (h : command.Discards) :
    (w.step command).2 = w.cancelEdit := by
  cases h with
  | escape name m hname =>
    have hact : w.actionOf (.ofName name) m = .cancel := by
      rw [actionOf, Action.ofKey_eq_cancel_iff.mpr (Key.ofName_eq_escape_iff.mpr hname)]
    show (w.act (w.actionOf (.ofName name) m)).2.2 = w.cancelEdit
    rw [hact, act, Session.act, Session.cancel, hedit]
    rfl
  | cancelEdit => rfl

/-- What an open editor is left alone by changes nothing at all. -/
theorem step_of_ignored (hexclusive : w.session.Exclusive) (hedit : w.session.editor = some edit)
    (h : command.Ignored w.grid) : (w.step command).2 = w := by
  have hfree := hexclusive.deselected hedit
  cases h with
  | press name m hconfirm hcancel =>
    have hends : ¬ (Action.ofKey (.ofName name) m).EndsEditing := by
      rw [Action.EndsEditing, Action.ofKey_eq_confirm_iff, Action.ofKey_eq_cancel_iff,
        Key.ofName_eq_enter_iff, Key.ofName_eq_escape_iff]
      exact not_or.mpr ⟨hconfirm, hcancel⟩
    show (w.press (.ofName name) m).2.2 = w
    rw [press_eq_act hexclusive, act_of_deselected hfree hends]
  | click c shift hgrid =>
    show (w.click c shift).2 = w
    rw [click, if_neg hgrid]
  | copy =>
    show (w.act .copy).2.2 = w
    rw [act_of_deselected hfree (by simp [Action.EndsEditing])]
  | cut =>
    show (w.act .cut).2.2 = w
    rw [act_of_deselected hfree (by simp [Action.EndsEditing])]
  | paste =>
    show (w.act .paste).2.2 = w
    rw [act_of_deselected hfree (by simp [Action.EndsEditing])]

theorem editor_step_of_closes (hexclusive : w.session.Exclusive)
    (hedit : w.session.editor = some edit) (h : command.Stores w.grid ∨ command.Discards) :
    (w.step command).2.session.editor = none := by
  rcases h with hstores | hdiscards
  · exact editor_step_of_stores (hexclusive.deselected hedit) hstores
  · rw [step_of_discards hedit hdiscards, cancelEdit]

/-- What is typed takes the place of the text. -/
theorem editor_step_edit (hedit : w.session.editor = some edit) (text : String) :
    (w.step (.edit text)).2.session.editor = some ⟨edit.cell, text⟩ := by
  show w.session.editor.update text = some ⟨edit.cell, text⟩
  rw [hedit]
  rfl

/-- What neither stores nor gives up the text leaves the editor as it is, unless it is typing. -/
theorem editor_step_of_leaves (hexclusive : w.session.Exclusive)
    (hedit : w.session.editor = some edit) (h : ¬ (command.Stores w.grid ∨ command.Discards))
    (htyping : ∀ text, command ≠ .edit text) :
    (w.step command).2.session.editor = some edit := by
  have hignored (hcommand : command.Ignored w.grid) :
      (w.step command).2.session.editor = some edit := by
    rw [step_of_ignored hexclusive hedit hcommand, hedit]
  obtain ⟨hstores, hdiscards⟩ := not_or.mp h
  cases command with
  | enter c text =>
    rw [← hedit, ← (enter_frame w c text).2]
    rfl
  | erase c =>
    rw [← hedit, ← (erase_frame w c).2]
    rfl
  | insertChart c reference => rw [step_insertChart_snd, (insertChart_frame w c reference).2, hedit]
  | click c shift =>
    rw [Command.stores_click_iff] at hstores
    exact hignored (.click c shift hstores)
  | press key m =>
    rw [Command.stores_press_iff] at hstores
    rw [Command.discards_press_iff] at hdiscards
    exact hignored (Command.ignored_press_iff.mpr ⟨hstores, hdiscards⟩)
  | edit text => exact absurd rfl (htyping text)
  | commit => exact absurd .commit hstores
  | cancelEdit => exact absurd .cancelEdit hdiscards
  | copy => exact hignored .copy
  | cut => exact hignored .cut
  | paste => exact hignored .paste

/-- Every command that neither stores nor gives up the text leaves the editor open. -/
theorem editor_step_ne_none (hexclusive : w.session.Exclusive)
    (hedit : w.session.editor = some edit) (h : ¬ (command.Stores w.grid ∨ command.Discards)) :
    (w.step command).2.session.editor ≠ none := by
  by_cases htyping : ∃ text, command = .edit text
  · obtain ⟨text, rfl⟩ := htyping
    rw [editor_step_edit hedit]
    exact Option.some_ne_none _
  · rw [editor_step_of_leaves hexclusive hedit h (not_exists.mp htyping)]
    exact Option.some_ne_none _

/-! ### Every command on an open editor -/

/-- What a command does while the cell of `edit` is being edited. -/
structure EditingStep (w : Workbook) (edit : Edit) (command : Command) : Prop where
  /-- Only what stores the text or gives it up closes the editor, and it does. -/
  closes : (w.step command).2.session.editor = none ↔
    command.Stores w.grid ∨ command.Discards
  /-- What is typed takes the place of the text. -/
  typed : ∀ text, command = .edit text →
    (w.step command).2.session.editor = some ⟨edit.cell, text⟩
  /-- Nothing else changes the cell or the text of an editor that is still open. -/
  stays : ∀ after, (w.step command).2.session.editor = some after →
    (∀ text, command ≠ .edit text) → after = edit
  /-- What stores the text puts what it means into the cell, unless it is blank, and changes no
  other cell. -/
  stores : command.Stores w.grid → ∀ c, (w.step command).2.sheet.get? c =
    if c = edit.cell ∧ Text.allBlank edit.text = false then some (.ofEntry edit.text)
    else w.sheet.get? c
  /-- What gives up the text leaves the sheet as it is. -/
  discards : command.Discards → (w.step command).2.sheet = w.sheet
  /-- The rest of the keys and clicks, and copying, cutting and pasting, do nothing at all. -/
  ignored : command.Ignored w.grid → (w.step command).2 = w

theorem editingStep_of_exclusive (hexclusive : w.session.Exclusive)
    (hgrid : w.grid.contains edit.cell = true) (hedit : w.session.editor = some edit)
    (command : Command) : w.EditingStep edit command where
  closes := by
    refine ⟨fun hclosed => ?_, editor_step_of_closes hexclusive hedit⟩
    by_contra hopen
    exact editor_step_ne_none hexclusive hedit hopen hclosed
  typed := by
    rintro text rfl
    exact editor_step_edit hedit text
  stays := by
    intro after hafter htyping
    have hopen : ¬ (command.Stores w.grid ∨ command.Discards) := fun hcloses => by
      rw [editor_step_of_closes hexclusive hedit hcloses] at hafter
      cases hafter
    rw [editor_step_of_leaves hexclusive hedit hopen htyping] at hafter
    exact (Option.some.inj hafter).symm
  stores := get?_step_of_stores hgrid hedit
  discards := fun h => by rw [step_of_discards hedit h, cancelEdit]
  ignored := step_of_ignored hexclusive hedit

/-- **A typed text is never lost.** Whatever the commands were, nothing is selected while a cell is
being edited, and the next command stores the typed text, gives it up because it is one that asks
for that, or leaves it in the editor. -/
theorem editingStep_run (g : Grid) (commands : List Command) {edit : Edit}
    (hedit : ((blank g).run commands).session.editor = some edit) :
    ((blank g).run commands).session.selection = none ∧
      ∀ command, ((blank g).run commands).EditingStep edit command := by
  have hexclusive := exclusive_run g commands
  have hcell : ((blank g).run commands).grid.contains edit.cell = true :=
    (run_induction (fun _ command h => h.step command) (onGrid_blank g) commands).session.editor
      edit hedit
  exact ⟨hexclusive.deselected hedit, editingStep_of_exclusive hexclusive hcell hedit⟩

/-- `A1` is selected and opened, and a text is typed. -/
def Typing.commands : List Command := [.click .origin false, .click .origin false, .edit "7"]

/-- The text is left alone by a request to paste, and stored by Enter. -/
theorem typing_editingStep :
    ((blank .small).run Typing.commands).session.editor = some ⟨.origin, "7"⟩ ∧
    (((blank .small).run Typing.commands).step .paste).2 = (blank .small).run Typing.commands ∧
    (((blank .small).run Typing.commands).step (.press .enter .none)).2.sheet.get? .origin =
      some (.ofEntry "7") := by
  have hedit : ((blank .small).run Typing.commands).session.editor = some ⟨.origin, "7"⟩ := by
    decide
  have hstep := (editingStep_run .small Typing.commands hedit).2
  exact ⟨hedit, (hstep .paste).ignored .paste, (hstep _).stores .confirm .origin⟩

/-! ### Keys and requests -/

/-- A key does what the request does that it stands for. -/
structure KeysAgree (w : Workbook) : Prop where
  copy : ∀ m : Modifiers, m.controlOrCommand = true → ∀ name ∈ ["c", "C"],
    (w.step (.press (.ofName name) m)).2 = (w.step .copy).2
  cut : ∀ m : Modifiers, m.controlOrCommand = true → ∀ name ∈ ["x", "X"],
    (w.step (.press (.ofName name) m)).2 = (w.step .cut).2
  /-- Pasting also answers the same. -/
  paste : ∀ m : Modifiers, m.controlOrCommand = true → ∀ name ∈ ["v", "V"],
    w.step (.press (.ofName name) m) = w.step .paste
  /-- Confirming also answers the same. -/
  confirm : w.step (.press (.ofName "Enter") .none) = w.step .commit
  /-- Cancelling gives up the selection if there is no editor to be closed, and is the same as the
  request only if there is one. -/
  cancel : w.isEditing = true → ∀ name ∈ ["Escape", "Esc"], ∀ m : Modifiers,
    (w.step (.press (.ofName name) m)).2 = (w.step .cancelEdit).2

/-- **Keys and requests agree** on every workbook that a run leads to. -/
theorem keysAgree_run (g : Grid) (commands : List Command) :
    ((blank g).run commands).KeysAgree := by
  have hexclusive := exclusive_run g commands
  generalize (blank g).run commands = w at *
  constructor
  case copy =>
    intro m hm name hname
    show (w.press (.ofName name) m).2.2 = (w.act .copy).2.2
    rw [press_eq_act hexclusive, (Action.ofKey_shortcut hm).1 name hname]
  case cut =>
    intro m hm name hname
    show (w.press (.ofName name) m).2.2 = (w.act .cut).2.2
    rw [press_eq_act hexclusive, (Action.ofKey_shortcut hm).2.1 name hname]
  case paste =>
    intro m hm name hname
    have hpress : w.press (.ofName name) m = w.paste := by
      rw [press_eq_act hexclusive, (Action.ofKey_shortcut hm).2.2 name hname, Workbook.paste]
    rw [step, hpress]
    rfl
  case confirm => rfl
  case cancel =>
    intro hediting name hname m
    obtain ⟨edit, hedit⟩ := Option.isSome_iff_exists.mp hediting
    exact step_of_discards hedit (.escape name m (by simpa using hname))

end Workbook

end Worksheet
