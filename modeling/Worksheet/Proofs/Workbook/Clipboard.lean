import Mathlib.Data.List.Induction
import Worksheet.Proofs.Workbook.Editing

/-!
# What is pasted

A paste takes its region from the clipboard, and the clipboard is a single slot: what is copied or
cut replaces what was in it, and pasting what was cut empties it. Nothing in a session says how the
slot came to be as it is. Here it is compared with what the user did, that is with the list of all
commands and of the workbooks that they found (`Workbook.moments`).

In such a history a region counts as recorded when copying or cutting was asked for, by a key or by
a request, and there was a selection. It is on offer when nothing was recorded after it and, if it
was cut, nothing was pasted after it either. The clipboard holds just what the history offers
(`Workbook.clipboard_run_eq_some_iff`): a command puts a region on offer, leaves the offer as it is,
or uses up one that was cut, and there is no fourth possibility, neither for a request in vain nor
for what is done in between.

## Main definitions

* `Command.action?` — the action that a command asks for
* `Moment`, `Workbook.moments` — a command and the workbook it found, and all of them in a run
* `Moment.recorded?`, `Moment.pasted?` — what was put into the clipboard, and what was pasted where
* `LastRecorded`, `Offers` — what can be said of the clipboard from the history alone
* `Workbook.PastesRecorded` — the rules of pasting after a history

## Main results

* `Workbook.clipboard_step_eq_some_iff` — the clipboard after one command
* `Workbook.clipboard_run_eq_some_iff` — the clipboard after a run
* `Workbook.pastesRecorded_run` — the rules hold after every run
-/

namespace Worksheet

/-! ### Recording and pasting, for one action -/

/-- What the effect pastes, and where its top left cell comes to lie. -/
def Effect.pasted? : Effect → Option (Clip × Coord)
  | .paste source anchor cut => some (⟨source, cut⟩, anchor)
  | _ => none

namespace Session

variable {g : Grid} {s : Session} {action : Action} {clip : Clip} {anchor : Coord}

/-- What an action records: the selected region, if there is one and it is to be copied or cut. -/
def recorded? (s : Session) : Action → Option Clip
  | .copy => s.selection.map fun r => ⟨r, false⟩
  | .cut => s.selection.map fun r => ⟨r, true⟩
  | _ => none

theorem remember_fst (s : Session) (cut : Bool) : (s.remember cut).1 = .idle := by
  rw [remember]
  split <;> rfl

theorem clipboard_remember (s : Session) (cut : Bool) :
    (s.remember cut).2.clipboard = (s.selection.map fun r => ⟨r, cut⟩).or s.clipboard := by
  rw [remember]
  split <;> simp [*]

theorem clipboard_advance (s : Session) (d : Direction) (shift : Bool) :
    (s.advance d shift g).1.pasted? = none ∧
      (s.advance d shift g).2.clipboard = s.clipboard := by
  rw [advance]
  split <;> exact ⟨rfl, rfl⟩

theorem clipboard_cancel (s : Session) :
    s.cancel.1.pasted? = none ∧ s.cancel.2.clipboard = s.clipboard := by
  rw [cancel]
  split <;> exact ⟨rfl, rfl⟩

theorem clipboard_commit (s : Session) :
    s.commit.1.pasted? = none ∧ s.commit.2.clipboard = s.clipboard := by
  rw [commit]
  split <;> exact ⟨rfl, rfl⟩

theorem clipboard_click (s : Session) (c : Coord) (shift : Bool) (textOf : Coord → String) :
    (s.click c shift textOf).2.clipboard = s.clipboard := by
  rw [click]
  split <;> rfl

/-- Pasting needs something to be pasted and a selection. -/
theorem pasted?_paste_eq_some_iff :
    s.paste.1.pasted? = some (clip, anchor) ↔
      s.clipboard = some clip ∧ ∃ r, s.selection = some r ∧ anchor = r.topLeft := by
  obtain ⟨selection, editor, clipboard⟩ := s
  cases clipboard <;> cases selection <;> simp [paste, Effect.pasted?, eq_comm]

/-- What was cut stays in the clipboard only if it could not be pasted. -/
theorem clipboard_paste_eq_some_iff :
    s.paste.2.clipboard = some clip ↔
      s.clipboard = some clip ∧ (clip.cut = true → s.paste.1.pasted? = none) := by
  obtain ⟨selection, editor, clipboard⟩ := s
  cases clipboard with
  | none => simp [paste]
  | some held =>
    cases selection with
    | none => simp [paste, Effect.pasted?]
    | some r =>
      simp only [paste, Effect.pasted?, Clipboard.afterPaste, Option.filter_eq_some_iff,
        Option.some.injEq, reduceCtorEq, imp_false]
      simp

/-- Pasting what was copied leaves the session as it is. -/
theorem paste_snd_of_copied (hclip : s.clipboard = some clip) (hcopied : clip.cut = false) :
    s.paste.2 = s := by
  obtain ⟨selection, editor, clipboard⟩ := s
  cases hclip
  cases selection <;> simp [paste, Clipboard.afterPaste, hcopied]

/-- Every action but pasting pastes nothing, and what it records replaces what is in the
clipboard. -/
theorem act_of_ne_paste (h : action ≠ .paste) :
    (s.act g action).1.pasted? = none ∧
      (s.act g action).2.clipboard = (s.recorded? action).or s.clipboard := by
  cases action with
  | move d => exact clipboard_advance s d false
  | extend d => exact clipboard_advance s d true
  | cancel => exact clipboard_cancel s
  | confirm => exact clipboard_commit s
  | delete =>
    rw [act]
    split <;> exact ⟨rfl, rfl⟩
  | copy => exact ⟨by rw [act, remember_fst]; rfl, clipboard_remember s false⟩
  | cut => exact ⟨by rw [act, remember_fst]; rfl, clipboard_remember s true⟩
  | paste => exact absurd rfl h
  | ignore => exact ⟨rfl, rfl⟩

theorem pasted?_act_eq_some_iff :
    (s.act g action).1.pasted? = some (clip, anchor) ↔
      action = .paste ∧ s.clipboard = some clip ∧
        ∃ r, s.selection = some r ∧ anchor = r.topLeft := by
  by_cases hpaste : action = .paste
  · subst hpaste
    rw [act, pasted?_paste_eq_some_iff]
    exact (and_iff_right rfl).symm
  · rw [(act_of_ne_paste hpaste).1]
    simp [hpaste]

/-- What is in the clipboard was recorded by the action, or was there before; but what was cut is
gone if it was pasted. -/
theorem clipboard_act_eq_some_iff :
    (s.act g action).2.clipboard = some clip ↔
      s.recorded? action = some clip ∨
        (s.recorded? action = none ∧ s.clipboard = some clip ∧
          (clip.cut = true → (s.act g action).1.pasted? = none)) := by
  by_cases hpaste : action = .paste
  · subst hpaste
    rw [act, clipboard_paste_eq_some_iff]
    simp [recorded?]
  · obtain ⟨hpasted, hclipboard⟩ := act_of_ne_paste (g := g) (s := s) hpaste
    rw [hclipboard, hpasted, Option.or_eq_some_iff]
    simp

end Session

/-! ### Histories -/

/-- The action that a command asks for. A key asks for it also while a cell is being edited, when
the key belongs to the editor. -/
def Command.action? : Command → Option Action
  | .press key m => some (.ofKey key m)
  | .commit => some .confirm
  | .copy => some .copy
  | .cut => some .cut
  | .paste => some .paste
  | _ => none

/-- A command, and the workbook that it found. -/
structure Moment where
  workbook : Workbook
  command : Command

namespace Moment

/-- What was put into the clipboard, going by what was asked for and what was selected. -/
def recorded? (m : Moment) : Option Clip := m.command.action?.bind m.workbook.session.recorded?

/-- What was pasted, and where, going by the answer. -/
def pasted? (m : Moment) : Option (Clip × Coord) :=
  match (m.workbook.step m.command).1 with
  | .acted effect _ => effect.pasted?
  | _ => none

/-- Whether something was cut. -/
def cuts (m : Moment) : Bool := m.recorded?.any Clip.cut

/-- Whether something was pasted that was cut. -/
def moves (m : Moment) : Bool := m.pasted?.any fun pasted => pasted.1.cut

end Moment

/-- The commands of a run, each with the workbook that it finds. -/
def Workbook.moments (w : Workbook) : List Command → List Moment
  | [] => []
  | command :: rest => ⟨w, command⟩ :: (w.step command).2.moments rest

/-- `clip` was recorded in the history, and nothing was recorded in what came `since`. -/
def LastRecorded (history : List Moment) (clip : Clip) (since : List Moment) : Prop :=
  ∃ before m, history = before ++ m :: since ∧ m.recorded? = some clip ∧
    ∀ later ∈ since, later.recorded? = none

/-- `clip` was recorded last and, if it was cut, nothing was pasted since. -/
def Offers (history : List Moment) (clip : Clip) : Prop :=
  ∃ since, LastRecorded history clip since ∧
    (clip.cut = true → ∀ later ∈ since, later.pasted? = none)

section Offers

variable {history since : List Moment} {m : Moment} {clip : Clip}

theorem not_offers_nil : ¬ Offers [] clip := by
  rintro ⟨since, ⟨before, m, hsplit, -, -⟩, -⟩
  simp at hsplit

/-- What one more moment makes of an offer. -/
theorem offers_concat_iff :
    Offers (history ++ [m]) clip ↔
      m.recorded? = some clip ∨
        (m.recorded? = none ∧ Offers history clip ∧ (clip.cut = true → m.pasted? = none)) := by
  constructor
  · rintro ⟨since, ⟨before, first, hsplit, hrecorded, hlast⟩, hunused⟩
    -- the new moment is the recording itself, or the last one since
    rcases since.eq_nil_or_concat with rfl | ⟨between, last, rfl⟩
    · obtain ⟨-, hsame⟩ := List.append_inj' hsplit rfl
      cases hsame
      exact .inl hrecorded
    · rw [List.concat_eq_append] at hsplit hlast hunused
      rw [← List.cons_append, ← List.append_assoc] at hsplit
      obtain ⟨rfl, hsame⟩ := List.append_inj' hsplit rfl
      cases hsame
      rw [List.forall_mem_append, List.forall_mem_singleton] at hlast hunused
      exact .inr ⟨hlast.2,
        ⟨between, ⟨before, first, rfl, hrecorded, hlast.1⟩, fun hcut => (hunused hcut).1⟩,
        fun hcut => (hunused hcut).2⟩
  · rintro (hrecorded | ⟨hnone, ⟨since, ⟨before, first, rfl, hrecorded, hlast⟩, hunused⟩, hm⟩)
    · exact ⟨[], ⟨history, m, rfl, hrecorded, by simp⟩, by simp⟩
    · refine ⟨since ++ [m], ⟨before, first, by simp, hrecorded, ?_⟩, fun hcut => ?_⟩
      · exact List.forall_mem_append.mpr ⟨hlast, List.forall_mem_singleton.mpr hnone⟩
      · exact List.forall_mem_append.mpr
          ⟨hunused hcut, List.forall_mem_singleton.mpr (hm hcut)⟩

theorem LastRecorded.offers (h : LastRecorded history clip since) (hcopied : clip.cut = false) :
    Offers history clip :=
  ⟨since, h, fun hcut => absurd (hcopied.symm.trans hcut) Bool.false_ne_true⟩

end Offers

namespace Workbook

variable {w : Workbook} {command : Command} {clip : Clip} {anchor : Coord}

theorem moments_concat (w : Workbook) (commands : List Command) (command : Command) :
    w.moments (commands ++ [command]) = w.moments commands ++ [⟨w.run commands, command⟩] := by
  induction commands generalizing w with
  | nil => rfl
  | cons first rest ih => rw [List.cons_append, moments, ih, moments, run_cons, List.cons_append]

/-! ### One command -/

/-- A command that asks for an action does it. -/
theorem step_of_action? {action : Action} (h : w.session.Exclusive)
    (haction : command.action? = some action) :
    Moment.pasted? ⟨w, command⟩ = (w.session.act w.grid action).1.pasted? ∧
      (w.step command).2 = (w.act action).2.2 := by
  cases command with
  | press key m =>
    cases haction
    rw [Moment.pasted?, step, press_eq_act h]
    exact ⟨rfl, rfl⟩
  | commit | paste =>
    cases haction
    exact ⟨rfl, rfl⟩
  -- the answer to copying and cutting has no room for an effect, and there is none
  | copy | cut =>
    cases haction
    exact ⟨(Session.act_of_ne_paste (by simp)).1.symm, rfl⟩
  | enter | erase | insertChart | click | edit | cancelEdit => cases haction

/-- A command that asks for no action has nothing to do with the clipboard. -/
theorem step_of_action?_eq_none (haction : command.action? = none) :
    Moment.pasted? ⟨w, command⟩ = none ∧
      (w.step command).2.session.clipboard = w.session.clipboard := by
  cases command with
  | enter c text =>
    refine ⟨rfl, ?_⟩
    show (w.enter c text).2.session.clipboard = w.session.clipboard
    rw [(enter_frame w c text).2]
  | erase c =>
    refine ⟨rfl, ?_⟩
    show (w.erase c).2.session.clipboard = w.session.clipboard
    rw [(erase_frame w c).2]
  | insertChart c reference =>
    rw [step_insertChart_snd, (insertChart_frame w c reference).2]
    refine ⟨?_, rfl⟩
    rcases hinsert : w.insertChart c reference with ⟨answer, after⟩
    cases answer <;> simp [Moment.pasted?, step, hinsert]
  | click c shift =>
    refine ⟨rfl, ?_⟩
    show (w.click c shift).2.session.clipboard = w.session.clipboard
    rw [click]
    split
    · rw [Session.clipboard_click, session_commit]
    · rfl
  | edit text => exact ⟨rfl, rfl⟩
  | cancelEdit => exact ⟨rfl, rfl⟩
  | press | commit | copy | cut | paste => cases haction

/-- A paste is asked for, and takes place where there is something to be pasted and a selection. -/
theorem pasted?_eq_some_iff (h : w.session.Exclusive) :
    Moment.pasted? ⟨w, command⟩ = some (clip, anchor) ↔
      command.action? = some .paste ∧ w.session.clipboard = some clip ∧
        ∃ r, w.session.selection = some r ∧ anchor = r.topLeft := by
  cases haction : command.action? with
  | none =>
    rw [(step_of_action?_eq_none haction).1]
    simp
  | some action =>
    rw [(step_of_action? h haction).1, Session.pasted?_act_eq_some_iff, Option.some.injEq]

/-- **The clipboard after one command.** -/
theorem clipboard_step_eq_some_iff (h : w.session.Exclusive) :
    (w.step command).2.session.clipboard = some clip ↔
      Moment.recorded? ⟨w, command⟩ = some clip ∨
        (Moment.recorded? ⟨w, command⟩ = none ∧ w.session.clipboard = some clip ∧
          (clip.cut = true → Moment.pasted? ⟨w, command⟩ = none)) := by
  cases haction : command.action? with
  | none =>
    obtain ⟨hpasted, hclipboard⟩ := step_of_action?_eq_none (w := w) haction
    rw [hclipboard, hpasted]
    simp [Moment.recorded?, haction]
  | some action =>
    obtain ⟨hpasted, hstep⟩ := step_of_action? h haction
    rw [hstep, act, session_settle, hpasted, Session.clipboard_act_eq_some_iff]
    simp only [Moment.recorded?, haction, Option.bind_some]

/-- What pastes does not record. -/
theorem recorded?_of_paste (haction : command.action? = some .paste) :
    Moment.recorded? ⟨w, command⟩ = none := by
  rw [Moment.recorded?, haction]
  rfl

/-- What records does not paste. -/
theorem pasted?_of_recorded? (h : w.session.Exclusive) {recorded : Clip}
    (hrecorded : Moment.recorded? ⟨w, command⟩ = some recorded) :
    Moment.pasted? ⟨w, command⟩ = none := by
  refine Option.eq_none_iff_forall_ne_some.mpr fun pasted hpasted => ?_
  obtain ⟨haction, -, -⟩ := (pasted?_eq_some_iff h).mp hpasted
  rw [recorded?_of_paste haction] at hrecorded
  cases hrecorded

/-- Without a selection, a paste that is asked for does nothing. -/
theorem step_of_deselected (h : w.session.Exclusive) (hfree : w.session.selection = none)
    (haction : command.action? = some .paste) : w.step command = (.acted .idle [], w) := by
  have hact : w.act .paste = (.idle, [], w) :=
    act_of_deselected hfree (by simp [Action.EndsEditing])
  cases command with
  | press key m =>
    rw [step, press_eq_act h, Option.some.inj haction, hact]
  | paste => rw [step, paste, hact]
  | enter | erase | insertChart | click | edit | commit | cancelEdit | copy | cut => cases haction

/-- An empty clipboard stays empty until something is recorded, and nothing is pasted from it. -/
theorem step_of_empty (h : w.session.Exclusive) (hempty : w.session.clipboard = none)
    (hnone : Moment.recorded? ⟨w, command⟩ = none) :
    Moment.pasted? ⟨w, command⟩ = none ∧ (w.step command).2.session.clipboard = none := by
  constructor
  · refine Option.eq_none_iff_forall_ne_some.mpr fun pasted hpasted => ?_
    obtain ⟨-, hclip, -⟩ := (pasted?_eq_some_iff h).mp hpasted
    rw [hempty] at hclip
    cases hclip
  · refine Option.eq_none_iff_forall_ne_some.mpr fun clip hclip => ?_
    rw [clipboard_step_eq_some_iff h, hnone, hempty] at hclip
    simp at hclip

/-- Pasting what was cut empties the clipboard. -/
theorem clipboard_step_of_moves (h : w.session.Exclusive)
    (hpasted : Moment.pasted? ⟨w, command⟩ = some (clip, anchor)) (hcut : clip.cut = true) :
    (w.step command).2.session.clipboard = none := by
  obtain ⟨haction, hclip, -⟩ := (pasted?_eq_some_iff h).mp hpasted
  refine Option.eq_none_iff_forall_ne_some.mpr fun after hafter => ?_
  rw [clipboard_step_eq_some_iff h, recorded?_of_paste haction, hpasted, hclip] at hafter
  rcases hafter with hrecorded | ⟨-, hsame, hunused⟩
  · cases hrecorded
  · cases hsame
    cases hunused hcut

/-- Pasting what was copied leaves the session as it is. -/
theorem session_step_of_copied (h : w.session.Exclusive)
    (haction : command.action? = some .paste) (hclip : w.session.clipboard = some clip)
    (hcopied : clip.cut = false) : (w.step command).2.session = w.session := by
  rw [(step_of_action? h haction).2, act, session_settle]
  exact Session.paste_snd_of_copied hclip hcopied

/-- What was cut is in the clipboard until it is pasted, so each paste of it uses up a cut. -/
theorem moves_add_pending_le (h : w.session.Exclusive) (command : Command) :
    (Moment.moves ⟨w, command⟩).toNat +
        ((w.step command).2.session.clipboard.any Clip.cut).toNat ≤
      (Moment.cuts ⟨w, command⟩).toNat + (w.session.clipboard.any Clip.cut).toNat := by
  rw [Moment.moves, Moment.cuts]
  have hafter (clip : Clip) : (w.step command).2.session.clipboard = some clip ↔ _ :=
    clipboard_step_eq_some_iff h
  cases hrecorded : Moment.recorded? ⟨w, command⟩ with
  | some recorded =>
    rw [pasted?_of_recorded? h hrecorded, (hafter recorded).mpr (.inl hrecorded)]
    simp
  | none =>
    cases hpasted : Moment.pasted? ⟨w, command⟩ with
    | none =>
      have hsame : (w.step command).2.session.clipboard = w.session.clipboard :=
        Option.ext fun clip => by simp [hafter, hrecorded, hpasted]
      rw [hsame]
      simp
    | some pasted =>
      obtain ⟨clip, anchor⟩ := pasted
      obtain ⟨haction, hclip, -⟩ := (pasted?_eq_some_iff h).mp hpasted
      cases hcut : clip.cut with
      | true =>
        rw [clipboard_step_of_moves h hpasted hcut, hclip]
        simp
      | false =>
        rw [session_step_of_copied h haction hclip hcut, hclip]
        simp [hcut]

/-! ### Runs -/

/-- **The clipboard after a run** holds what the history offers. -/
theorem clipboard_run_eq_some_iff (g : Grid) (commands : List Command) (clip : Clip) :
    ((blank g).run commands).session.clipboard = some clip ↔
      Offers ((blank g).moments commands) clip := by
  induction commands using List.reverseRecOn with
  | nil => exact iff_of_false (by rintro ⟨⟩) not_offers_nil
  | append_singleton commands command ih =>
    rw [run_append, run_cons, run_nil, clipboard_step_eq_some_iff (exclusive_run g commands), ih,
      moments_concat, offers_concat_iff]

/-- While nothing is recorded, nothing is pasted from an empty clipboard. -/
theorem pasted?_moments_of_empty (h : w.session.Exclusive) (hempty : w.session.clipboard = none)
    (commands : List Command) (hnone : ∀ m ∈ w.moments commands, m.recorded? = none) :
    ∀ m ∈ w.moments commands, m.pasted? = none := by
  induction commands generalizing w with
  | nil => simp [moments]
  | cons command rest ih =>
    rw [moments, List.forall_mem_cons] at hnone ⊢
    obtain ⟨hpasted, hstill⟩ := step_of_empty h hempty hnone.1
    exact ⟨hpasted, ih (exclusive_step h command) hstill hnone.2⟩

/-- What was copied can be pasted again and again. -/
theorem pasted?_moments_replicate {r : Region} (h : w.session.Exclusive)
    (haction : command.action? = some .paste) (hclip : w.session.clipboard = some clip)
    (hcopied : clip.cut = false) (hselected : w.session.selection = some r) (n : Nat) :
    ∀ m ∈ w.moments (List.replicate n command), m.pasted? = some (clip, r.topLeft) := by
  induction n generalizing w with
  | zero => simp [moments]
  | succ n ih =>
    have hsession := session_step_of_copied h haction hclip hcopied
    rw [List.replicate_succ, moments, List.forall_mem_cons]
    refine ⟨(pasted?_eq_some_iff h).mpr ⟨haction, hclip, r, hselected, rfl⟩,
      ih (exclusive_step h command) ?_ ?_⟩
    · rw [hsession, hclip]
    · rw [hsession, hselected]

/-- No more is moved than was cut, and what is in the clipboard counts as cut. -/
theorem countP_moves_add_pending_le (g : Grid) (commands : List Command) :
    ((blank g).moments commands).countP Moment.moves +
        (((blank g).run commands).session.clipboard.any Clip.cut).toNat ≤
      ((blank g).moments commands).countP Moment.cuts := by
  induction commands using List.reverseRecOn with
  | nil => simp [moments, blank, Session.idle]
  | append_singleton commands command ih =>
    have hstep := moves_add_pending_le (exclusive_run g commands) command
    have hcount (p : Moment → Bool) (history : List Moment) (m : Moment) :
        (history ++ [m]).countP p = history.countP p + (p m).toNat := by
      cases hm : p m <;> simp [hm]
    rw [run_append, run_cons, run_nil, moments_concat, hcount, hcount]
    omega

/-! ### The rules of pasting -/

/-- The rules of pasting in the workbook `w` with its history. -/
structure PastesRecorded (history : List Moment) (w : Workbook) : Prop where
  /-- A paste takes place when it is asked for, something is on offer and there is a selection. It
  pastes what is on offer, as it was recorded, at the top left cell of the selection. -/
  pastes : ∀ command clip anchor, Moment.pasted? ⟨w, command⟩ = some (clip, anchor) ↔
    command.action? = some .paste ∧ Offers history clip ∧
      ∃ r, w.session.selection = some r ∧ anchor = r.topLeft
  /-- When something is pasted that was cut, nothing more is until something is recorded again. -/
  once : ∀ command clip anchor, Moment.pasted? ⟨w, command⟩ = some (clip, anchor) →
    clip.cut = true → ∀ later,
      (∀ m ∈ (w.step command).2.moments later, m.recorded? = none) →
        ∀ m ∈ (w.step command).2.moments later, m.pasted? = none
  /-- Where nothing is selected, pasting has no effect and changes nothing, so that what is in the
  clipboard stays there. -/
  unselected : w.session.selection = none → ∀ command, command.action? = some .paste →
    w.step command = (.acted .idle [], w)
  /-- What was copied last can be pasted as many times in a row as one likes. -/
  again : ∀ clip since r, LastRecorded history clip since → clip.cut = false →
    w.session.selection = some r → ∀ command, command.action? = some .paste →
      ∀ n, ∀ m ∈ w.moments (List.replicate n command), m.pasted? = some (clip, r.topLeft)
  /-- No more is moved than was cut. -/
  counts : history.countP Moment.moves ≤ history.countP Moment.cuts

/-- **What is pasted was recorded last**, whatever the commands were, and what was cut is pasted
once. -/
theorem pastesRecorded_run (g : Grid) (commands : List Command) :
    PastesRecorded ((blank g).moments commands) ((blank g).run commands) := by
  have hexclusive := exclusive_run g commands
  have hclipboard := clipboard_run_eq_some_iff g commands
  constructor
  case pastes =>
    intro command clip anchor
    rw [pasted?_eq_some_iff hexclusive, hclipboard]
  case once =>
    intro command clip anchor hpasted hcut later hnone
    exact pasted?_moments_of_empty (exclusive_step hexclusive command)
      (clipboard_step_of_moves hexclusive hpasted hcut) later hnone
  case unselected =>
    intro hfree command haction
    exact step_of_deselected hexclusive hfree haction
  case again =>
    intro clip since r hlast hcopied hselected command haction n
    have hclip := (hclipboard clip).mpr (hlast.offers hcopied)
    exact pasted?_moments_replicate hexclusive haction hclip hcopied hselected n
  case counts => exact Nat.le_of_add_right_le (countP_moves_add_pending_le g commands)

/-- A cell that was cut is pasted by the first of two requests. -/
example : ((blank .small).moments [.click .origin false, .cut, .paste, .paste]).map Moment.pasted? =
    [none, none, some (⟨.single .origin, true⟩, .origin), none] := by decide

end Workbook

end Worksheet
