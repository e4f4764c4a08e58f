import Mathlib.Logic.Relation
import Worksheet.Proofs.Workbook.Paste

/-!
# What one command can do

A workbook has a dozen commands, and each of them touches the sheet, the session, or both. An
invariant of runs would have to be shown for every command anew. Instead, it is said here once what
commands can do at all, for the two halves of a workbook apart.

On the *sheet*, a cell holds after a command what it held before, or it is on the grid and holds
what some cell held before, what a typed text means, or a chart. These four are the constructors of
`Workbook.Origin`. Nothing is said about cells that become empty: an invariant of what is stored
does not care.

The *session* changes in small steps, the constructors of `Session.Change`. One command takes any
number of them, a click for example two: it closes the editor, and then selects or opens a cell.

## Main definitions

* `Workbook.Origin` — where the content of a cell comes from
* `Session.Change` — one small step of a session

## Main results

* `Workbook.origin_step` — every content after a command has an origin before it
* `Workbook.session_step` — a command changes the session in small steps
* `Workbook.run_induction`, `Workbook.session_run` — what commands keep, runs keep
-/

namespace Worksheet

/-! ### Steps of a session -/

namespace Session

variable {g : Grid} {s : Session}

/-- A small step of a session whose workbook is on the grid `g`. -/
inductive Change (g : Grid) (s : Session) : Session → Prop
  /-- The editor is closed, whether its text is stored or not. -/
  | close : Change g s { s with editor := none }
  /-- The text in the editor is replaced. -/
  | type (text : String) : Change g s { s with editor := s.editor.update text }
  /-- The selection is given up. -/
  | deselect : Change g s { s with selection := none }
  /-- A cell of the grid is selected, alone or together with what is selected. An editor is open
  only if there is a selection. -/
  | select (c : Coord) (r : Region) (hgrid : g.contains c = true)
      (hregion : r = .single c ∨ ∃ old, s.selection = some old ∧ r = old.extend c)
      (hfree : s.editor = none ∨ s.selection ≠ none) : Change g s { s with selection := some r }
  /-- A cell of the grid is opened to be edited, and nothing is selected. -/
  | openCell (c : Coord) (text : String) (hgrid : g.contains c = true) :
      Change g s { s with selection := none, editor := some ⟨c, text⟩ }
  /-- The selected region is remembered. -/
  | remember (r : Region) (cut : Bool) (hselected : s.selection = some r) :
      Change g s { s with clipboard := some ⟨r, cut⟩ }
  /-- What was remembered is pasted. -/
  | forget : Change g s { s with clipboard := s.clipboard.afterPaste }

/-- Any number of small steps. -/
abbrev Changes (g : Grid) : Session → Session → Prop := Relation.ReflTransGen (Change g)

theorem Change.changes {s' : Session} (h : Change g s s') : Changes g s s' := .single h

/-- A property that every small step keeps is kept by any number of them. -/
theorem Changes.preserves {P : Session → Prop} (hstep : ∀ s s', Change g s s' → P s → P s')
    {s' : Session} (h : Changes g s s') (hs : P s) : P s' := by
  induction h with
  | refl => exact hs
  | tail _ hchange ih => exact hstep _ _ hchange ih

theorem commit_snd (s : Session) : s.commit.2 = { s with editor := none } := by
  obtain ⟨selection, editor, clipboard⟩ := s
  cases editor <;> rfl

/-- A click selects or opens a cell. It is made with the editor closed. -/
theorem change_click {c : Coord} {shift : Bool} {textOf : Coord → String}
    (hgrid : g.contains c = true) (hclosed : s.editor = none) :
    Change g s (s.click c shift textOf).2 := by
  cases hsel : s.selection with
  | none =>
    simp only [click, Selection.click, hsel]
    exact .select c _ hgrid (.inl rfl) (.inl hclosed)
  | some r =>
    by_cases hin : c ∈ r
    · simp only [click, Selection.click, hsel, hin, if_true]
      exact .openCell c _ hgrid
    · cases shift with
      | false =>
        simp only [click, Selection.click, hsel, hin, if_false, Bool.false_eq_true]
        exact .select c _ hgrid (.inl rfl) (.inl hclosed)
      | true =>
        simp only [click, Selection.click, hsel, hin, if_false, if_true]
        exact .select c _ hgrid (.inr ⟨r, hsel, rfl⟩) (.inl hclosed)

/-- An arrow key selects a cell of the grid, or does nothing. -/
theorem changes_advance (d : Direction) (shift : Bool) : Changes g s (s.advance d shift g).2 := by
  cases hsel : s.selection with
  | none =>
    rw [show (s.advance d shift g).2 = s by simp [advance, Selection.advance?, hsel]]
  | some r =>
    have hfree : s.editor = none ∨ s.selection ≠ none := .inr (by simp [hsel])
    cases hstep : g.step? d r.bottomRight with
    | none =>
      rw [show (s.advance d shift g).2 = s by simp [advance, Selection.advance?, hsel, hstep]]
    | some c =>
      have hgrid : g.contains c = true := (Option.filter_eq_some_iff.mp hstep).2
      rw [show (s.advance d shift g).2
          = { s with selection := some (if shift then r.extend c else .single c) } by
        simp [advance, Selection.advance?, hsel, hstep]]
      refine (Change.select c _ hgrid ?_ hfree).changes
      cases shift with
      | false => exact .inl rfl
      | true => exact .inr ⟨r, hsel, rfl⟩

theorem changes_remember (cut : Bool) : Changes g s (s.remember cut).2 := by
  cases hsel : s.selection with
  | none =>
    rw [show (s.remember cut).2 = s by simp [remember, hsel]]
  | some r =>
    rw [show (s.remember cut).2 = { s with clipboard := some ⟨r, cut⟩ } by simp [remember, hsel]]
    exact (Change.remember r cut hsel).changes

theorem changes_paste : Changes g s s.paste.2 := by
  cases hclip : s.clipboard with
  | none =>
    rw [show s.paste.2 = s by simp [paste, hclip]]
  | some clip =>
    cases hsel : s.selection with
    | none =>
      rw [show s.paste.2 = s by simp [paste, hclip, hsel]]
    | some r =>
      rw [show s.paste.2 = { s with clipboard := s.clipboard.afterPaste } by
        simp [paste, hclip, hsel]]
      exact Change.forget.changes

theorem changes_commit : Changes g s s.commit.2 := by
  rw [commit_snd]
  exact Change.close.changes

theorem changes_cancel : Changes g s s.cancel.2 := by
  cases hed : s.editor with
  | none =>
    rw [show s.cancel.2 = { s with selection := none } by simp [cancel, hed]]
    exact Change.deselect.changes
  | some edit =>
    rw [show s.cancel.2 = { s with editor := none } by simp [cancel, hed]]
    exact Change.close.changes

theorem changes_act (action : Action) : Changes g s (s.act g action).2 := by
  cases action with
  | move d => exact changes_advance d false
  | extend d => exact changes_advance d true
  | cancel => exact changes_cancel
  | confirm => exact changes_commit
  | delete =>
    rw [show (s.act g .delete).2 = s by cases hsel : s.selection <;> simp [act, hsel]]
  | copy => exact changes_remember false
  | cut => exact changes_remember true
  | paste => exact changes_paste
  | ignore => exact .refl

end Session

/-! ### What is stored -/

namespace Workbook

variable {w : Workbook} {c : Coord} {x : Content}

/-- Where the content `x` of the cell `c` may come from when `w` carries out a command. -/
inductive Origin (w : Workbook) (c : Coord) (x : Content) : Prop
  /-- The cell held it before. -/
  | kept (hheld : w.sheet.get? c = some x)
  /-- It was copied or moved from another cell. -/
  | pasted (d : Coord) (hgrid : w.grid.contains c = true) (hheld : w.sheet.get? d = some x)
  /-- It was typed. -/
  | typed (text : String) (hgrid : w.grid.contains c = true) (hblank : Text.allBlank text = false)
      (hmeans : x = .ofEntry text)
  /-- It is a chart that was inserted, of the region that a text refers to. -/
  | inserted (reference : String) (r : Region) (hgrid : w.grid.contains c = true)
      (hread : Region.ofReference reference = .ok r) (hchart : x = .chart r)

/-- Typing a text either does nothing or sets the cell. -/
theorem enter_cases (w : Workbook) (c : Coord) (text : String) :
    ((Text.allBlank text = true ∨ w.grid.contains c = false) ∧ w.enter c text = (false, w)) ∨
    (Text.allBlank text = false ∧ w.grid.contains c = true ∧
      w.enter c text = (true, w.withSheet (w.sheet.set c (.ofEntry text)))) := by
  rw [enter]
  cases Text.allBlank text with
  | true => exact .inl ⟨.inl rfl, rfl⟩
  | false =>
    cases w.grid.contains c with
    | false => exact .inl ⟨.inr rfl, rfl⟩
    | true => exact .inr ⟨rfl, rfl, rfl⟩

/-- Inserting a chart fails for the text, or else for the cell, or it sets the cell. -/
theorem insertChart_cases (w : Workbook) (c : Coord) (reference : String) :
    (∃ error, Region.ofReference reference = .error error ∧
      w.insertChart c reference = (.error error, w)) ∨
    (∃ r, Region.ofReference reference = .ok r ∧ w.grid.contains c = false ∧
      w.insertChart c reference = (.error (.invalidReference c.reference), w)) ∨
    (∃ r, Region.ofReference reference = .ok r ∧ w.grid.contains c = true ∧
      w.insertChart c reference = (.ok (), w.withSheet (w.sheet.set c (.chart r)))) := by
  rw [insertChart]
  cases Region.ofReference reference with
  | error error => exact .inl ⟨error, rfl, rfl⟩
  | ok r =>
    cases w.grid.contains c with
    | false => exact .inr (.inl ⟨r, rfl, rfl, rfl⟩)
    | true => exact .inr (.inr ⟨r, rfl, rfl, rfl⟩)

/-- Emptying a cell does nothing if there is nothing in it. -/
theorem erase_cases (w : Workbook) (c : Coord) :
    (w.sheet.get? c = none ∧ w.erase c = (false, w)) ∨
    (w.sheet.get? c ≠ none ∧ w.erase c = (true, w.withSheet (w.sheet.erase c))) := by
  rw [erase, Sheet.has]
  cases w.sheet.get? c with
  | none => exact .inl ⟨rfl, rfl⟩
  | some x => exact .inr ⟨Option.some_ne_none x, rfl⟩

/-- After a cell is set, the others hold what they held. -/
theorem origin_set {d : Coord} {y : Content} (hset : w.Origin d y)
    (h : (w.sheet.set d y).get? c = some x) : w.Origin c x := by
  rw [Sheet.get?_set] at h
  split at h
  · rename_i hcell
    rwa [hcell, ← Option.some.inj h]
  · exact .kept h

theorem origin_enter {d : Coord} {text : String} (h : (w.enter d text).2.sheet.get? c = some x) :
    w.Origin c x := by
  rcases w.enter_cases d text with ⟨-, henter⟩ | ⟨hblank, hgrid, henter⟩
  · rw [henter] at h
    exact .kept h
  · rw [henter] at h
    exact origin_set (.typed text hgrid hblank rfl) h

theorem origin_erase {d : Coord} (h : (w.erase d).2.sheet.get? c = some x) : w.Origin c x := by
  rcases w.erase_cases d with ⟨-, herase⟩ | ⟨-, herase⟩
  · rw [herase] at h
    exact .kept h
  · rw [herase, withSheet, Sheet.get?_erase] at h
    split at h
    · cases h
    · exact .kept h

theorem origin_insertChart {d : Coord} {reference : String}
    (h : (w.insertChart d reference).2.sheet.get? c = some x) : w.Origin c x := by
  rcases w.insertChart_cases d reference with
    ⟨error, -, hinsert⟩ | ⟨r, -, -, hinsert⟩ | ⟨r, hread, hgrid, hinsert⟩
  · rw [hinsert] at h
    exact .kept h
  · rw [hinsert] at h
    exact .kept h
  · rw [hinsert] at h
    exact origin_set (.inserted reference r hgrid hread rfl) h

theorem origin_apply_paste {source : Region} {anchor : Coord} {cut : Bool}
    (h : (w.apply (.paste source anchor cut)).2.sheet.get? c = some x) : w.Origin c x := by
  by_cases hover : ∃ d, w.Brings source anchor d c
  · obtain ⟨d, hd⟩ := hover
    rw [get?_apply_paste_of_brings cut hd] at h
    exact .pasted d hd.2 h
  · rw [get?_apply_paste_of_not_brings cut (not_exists.mp hover)] at h
    split at h
    · cases h
    · exact .kept h

theorem origin_apply {effect : Effect} (h : (w.apply effect).2.sheet.get? c = some x) :
    w.Origin c x := by
  cases effect with
  | idle => exact .kept h
  | redraw => exact .kept h
  | clear r =>
    rw [show (w.apply (.clear r)).2.sheet = (w.sheet.clear r).1 from rfl, Sheet.get?_clear] at h
    split at h
    · cases h
    · exact .kept h
  | paste source anchor cut => exact origin_apply_paste h
  | commit d text => exact origin_enter h

/-- The session has no part in where content comes from. -/
theorem Origin.of_session {s : Session} (h : Origin { w with session := s } c x) :
    w.Origin c x := by
  cases h with
  | kept hheld => exact .kept hheld
  | pasted d hgrid hheld => exact .pasted d hgrid hheld
  | typed text hgrid hblank hmeans => exact .typed text hgrid hblank hmeans
  | inserted reference r hgrid hread hchart => exact .inserted reference r hgrid hread hchart

theorem origin_settle {answer : Effect × Session}
    (h : (w.settle answer).2.2.sheet.get? c = some x) : w.Origin c x :=
  (origin_apply h).of_session

theorem origin_click {d : Coord} {shift : Bool} (h : (w.click d shift).2.sheet.get? c = some x) :
    w.Origin c x := by
  rw [click] at h
  split at h
  · exact origin_settle h
  · exact .kept h

/-! ### What stays -/

/-- Typing a text changes the sheet only. -/
theorem enter_frame (w : Workbook) (c : Coord) (text : String) :
    (w.enter c text).2.grid = w.grid ∧ (w.enter c text).2.session = w.session := by
  rcases w.enter_cases c text with ⟨-, henter⟩ | ⟨-, -, henter⟩
  all_goals rw [henter]; exact ⟨rfl, rfl⟩

theorem erase_frame (w : Workbook) (c : Coord) :
    (w.erase c).2.grid = w.grid ∧ (w.erase c).2.session = w.session := by
  rcases w.erase_cases c with ⟨-, herase⟩ | ⟨-, herase⟩
  all_goals rw [herase]; exact ⟨rfl, rfl⟩

theorem insertChart_frame (w : Workbook) (c : Coord) (reference : String) :
    (w.insertChart c reference).2.grid = w.grid ∧
      (w.insertChart c reference).2.session = w.session := by
  rcases w.insertChart_cases c reference with
    ⟨error, -, hinsert⟩ | ⟨r, -, -, hinsert⟩ | ⟨r, -, -, hinsert⟩
  all_goals rw [hinsert]; exact ⟨rfl, rfl⟩

/-- An effect changes the sheet only. -/
theorem apply_frame (w : Workbook) (effect : Effect) :
    (w.apply effect).2.grid = w.grid ∧ (w.apply effect).2.session = w.session := by
  cases effect with
  | commit c text => exact enter_frame w c text
  | _ => exact ⟨rfl, rfl⟩

theorem grid_settle (w : Workbook) (answer : Effect × Session) :
    (w.settle answer).2.2.grid = w.grid :=
  (apply_frame { w with session := answer.2 } answer.1).1

theorem session_settle (w : Workbook) (answer : Effect × Session) :
    (w.settle answer).2.2.session = answer.2 :=
  (apply_frame { w with session := answer.2 } answer.1).2

theorem session_commit (w : Workbook) :
    w.commit.2.2.session = { w.session with editor := none } := by
  rw [commit, session_settle, Session.commit_snd]

/-! ### One command -/

/-- What is answered when a chart is to be inserted. -/
theorem step_insertChart (w : Workbook) (c : Coord) (reference : String) :
    w.step (.insertChart c reference) =
      (.chart (match (w.insertChart c reference).1 with
        | .ok () => none
        | .error error => some error), (w.insertChart c reference).2) := by
  rw [step]
  rcases w.insertChart c reference with ⟨error | done, v⟩ <;> rfl

theorem step_insertChart_snd (w : Workbook) (c : Coord) (reference : String) :
    (w.step (.insertChart c reference)).2 = (w.insertChart c reference).2 := by
  rw [step_insertChart]

/-- **Every content after a command has an origin before it.** -/
theorem origin_step {command : Command} (h : (w.step command).2.sheet.get? c = some x) :
    w.Origin c x := by
  cases command with
  | enter d text => exact origin_enter h
  | erase d => exact origin_erase h
  | insertChart d reference =>
    rw [step_insertChart_snd] at h
    exact origin_insertChart h
  | click d shift => exact origin_click h
  | edit text => exact .kept h
  | cancelEdit => exact .kept h
  | press key m => exact origin_settle h
  | commit => exact origin_settle h
  | copy => exact origin_settle h
  | cut => exact origin_settle h
  | paste => exact origin_settle h

theorem session_click (d : Coord) (shift : Bool) :
    Session.Changes w.grid w.session (w.click d shift).2.session := by
  rw [click]
  split
  · rename_i hgrid
    have hclosed : w.commit.2.2.session.editor = none := by rw [session_commit]
    refine .trans ?_ (Session.change_click hgrid hclosed).changes
    rw [session_commit]
    exact Session.Change.close.changes
  · exact .refl

theorem session_act (action : Action) :
    Session.Changes w.grid w.session (w.act action).2.2.session := by
  rw [act, session_settle]
  exact Session.changes_act action

/-- **A command changes the session in small steps.** -/
theorem session_step (w : Workbook) (command : Command) :
    Session.Changes w.grid w.session (w.step command).2.session := by
  cases command with
  | enter d text => rw [show (w.step (.enter d text)).2.session = _ from (enter_frame w d text).2]
  | erase d => rw [show (w.step (.erase d)).2.session = _ from (erase_frame w d).2]
  | insertChart d reference => rw [step_insertChart_snd, (insertChart_frame w d reference).2]
  | click d shift => exact session_click d shift
  | edit text => exact (Session.Change.type text).changes
  | cancelEdit => exact Session.Change.close.changes
  | press key m => exact session_act _
  | commit =>
    rw [show (w.step .commit).2 = w.commit.2.2 from rfl, session_commit]
    exact Session.Change.close.changes
  | copy => exact session_act _
  | cut => exact session_act _
  | paste => exact session_act _

/-- No command changes the grid. -/
@[simp] theorem grid_step (w : Workbook) (command : Command) :
    (w.step command).2.grid = w.grid := by
  cases command with
  | enter d text => exact (enter_frame w d text).1
  | erase d => exact (erase_frame w d).1
  | insertChart d reference => rw [step_insertChart_snd, (insertChart_frame w d reference).1]
  | click d shift =>
    rw [show (w.step (.click d shift)).2 = (w.click d shift).2 from rfl, click]
    split
    · exact grid_settle w _
    · rfl
  | edit text => rfl
  | cancelEdit => rfl
  | press key m => exact grid_settle w _
  | commit => exact grid_settle w _
  | copy => exact grid_settle w _
  | cut => exact grid_settle w _
  | paste => exact grid_settle w _

/-! ### Runs -/

/-- What every command keeps holds after any run. -/
theorem run_induction {P : Workbook → Prop}
    (hstep : ∀ w command, P w → P (w.step command).2) {w : Workbook} (hw : P w)
    (commands : List Command) : P (w.run commands) := by
  induction commands generalizing w with
  | nil => exact hw
  | cons command rest ih =>
    rw [run_cons]
    exact ih (hstep w command hw)

@[simp] theorem grid_run (w : Workbook) (commands : List Command) :
    (w.run commands).grid = w.grid :=
  run_induction (P := fun v => v.grid = w.grid)
    (fun v command hv => by rw [grid_step, hv]) rfl commands

/-- What every small step of a session keeps holds after any run. -/
theorem session_run {g : Grid} {P : Session → Prop}
    (hstep : ∀ s s', Session.Change g s s' → P s → P s') (hidle : P .idle)
    (commands : List Command) : P ((blank g).run commands).session := by
  have hkeep : ∀ (w : Workbook) command, w.grid = g ∧ P w.session →
      (w.step command).2.grid = g ∧ P (w.step command).2.session := by
    rintro w command ⟨rfl, hw⟩
    exact ⟨grid_step w command, (session_step w command).preserves hstep hw⟩
  exact (run_induction (P := fun w => w.grid = g ∧ P w.session) hkeep ⟨rfl, hidle⟩ commands).2

end Workbook

end Worksheet
