import Worksheet.Proofs.Region.Order
import Worksheet.Proofs.Workbook.OnGrid

/-!
# Arrow keys

An arrow key steps from the bottom right cell of the selected region, whatever its direction is.
Without shift the cell where the step leads is selected instead, and that is always another
selection. With shift the cell is to be selected as well, and the region is to grow by the row or
the column that it is in.

Downwards and to the right it does. Upwards it does as long as the region has one row, and to the
left as long as it has one column. Where there is a second one, the step from the bottom right cell
leads back into the region: the answer is to redraw, and what is selected is what was selected
before. `Session.growsOrIdles_iff` says that this is the only way in which the key fails to do what
it is for, and that otherwise it does nothing only where the grid ends.
`Session.extendUp_not_growsOrIdles` shows the failure for two cells of a column, where the region
cannot grow upwards at all.

## Main definitions

* `Region.GrownTo` — a region with one more row or column on one side
* `Session.GrowsOrIdles` — an arrow key with shift makes the selected region grow, or does nothing

## Main results

* `Coord.neighbour?_eq_some_iff` — a step adds whole numbers to the row and to the column
* `Region.neighbour_mem_iff` — when the step from the bottom right cell stays in the region
* `Session.act_extend_eq_idle_iff` — when an arrow key with shift does nothing
* `Session.growsOrIdles_iff` — when an arrow key with shift makes the region grow or does nothing
-/

namespace Worksheet

/-! ### Steps -/

namespace Direction

/-- How many rows a step leads down. -/
def rowStep : Direction → Int
  | up => -1
  | down => 1
  | left | right => 0

/-- How many columns a step leads to the right. -/
def colStep : Direction → Int
  | left => -1
  | right => 1
  | up | down => 0

end Direction

theorem Coord.neighbour?_eq_some_iff {d : Direction} {c t : Coord} :
    c.neighbour? d = some t ↔
      (t.row : Int) = c.row + d.rowStep ∧ (t.col : Int) = c.col + d.colStep := by
  cases d with
  | up | down | left | right =>
    simp only [neighbour?, ofInt?_eq_some_iff, Direction.rowStep, Direction.colStep]
    omega

theorem Grid.step?_eq_some_iff {g : Grid} {d : Direction} {c t : Coord} :
    g.step? d c = some t ↔ c.neighbour? d = some t ∧ g.contains t = true :=
  Option.filter_eq_some_iff

/-! ### Regions that grow -/

namespace Region

variable {r : Region} {c : Coord} {d : Direction}

/-- The region `r'` has the cells of `r`, and those next to them in the direction `d`, and at least
one of these is new. So `r'` has one more row or column, on the side of `d`. -/
structure GrownTo (d : Direction) (r r' : Region) : Prop where
  mem_iff : ∀ c, c ∈ r' ↔ c ∈ r ∨ ∃ b ∈ r, b.neighbour? d = some c
  proper : ∃ c ∈ r', c ∉ r

/-- A step from the bottom right cell leads back into the region: it leads up and there is a second
row, or to the left and there is a second column. -/
def StepsBack (r : Region) : Direction → Prop
  | .up => 1 < r.height
  | .left => 1 < r.width
  | .down | .right => False

instance (r : Region) : (d : Direction) → Decidable (r.StepsBack d)
  | .up => inferInstanceAs (Decidable (1 < r.height))
  | .left => inferInstanceAs (Decidable (1 < r.width))
  | .down | .right => inferInstanceAs (Decidable False)

theorem neighbour_mem_iff (hstep : r.bottomRight.neighbour? d = some c) :
    c ∈ r ↔ r.StepsBack d := by
  have hrow := r.row_le
  have hcol := r.col_le
  rw [Coord.neighbour?_eq_some_iff] at hstep
  rw [mem_def]
  cases d with
  | up | down | left | right =>
    simp only [Direction.rowStep, Direction.colStep] at hstep
    simp only [StepsBack, height, width, iff_false]
    omega

/-- Where there is a second row or column, there is a cell for the step to lead to. -/
theorem StepsBack.exists_neighbour? (hback : r.StepsBack d) :
    ∃ c, r.bottomRight.neighbour? d = some c := by
  have hrow := r.bottomRight.row_lt
  have hcol := r.bottomRight.col_lt
  cases d with
  | up =>
    simp only [StepsBack, height] at hback
    refine ⟨{ r.bottomRight with row := r.bottomRight.row - 1, row_lt := by omega }, ?_⟩
    rw [Coord.neighbour?_eq_some_iff]
    simp only [Direction.rowStep, Direction.colStep]
    omega
  | left =>
    simp only [StepsBack, width] at hback
    refine ⟨{ r.bottomRight with col := r.bottomRight.col - 1, col_lt := by omega }, ?_⟩
    rw [Coord.neighbour?_eq_some_iff]
    simp only [Direction.rowStep, Direction.colStep]
    omega
  | down | right => cases hback

/-- The cell of the region that is closest to `c`. -/
def closest (r : Region) (c : Coord) : Coord where
  row := max r.topLeft.row (min c.row r.bottomRight.row)
  col := max r.topLeft.col (min c.col r.bottomRight.col)
  row_lt := by
    have hfirst := r.topLeft.row_lt
    have hlast := r.bottomRight.row_lt
    omega
  col_lt := by
    have hfirst := r.topLeft.col_lt
    have hlast := r.bottomRight.col_lt
    omega

theorem closest_mem (r : Region) (c : Coord) : r.closest c ∈ r := by
  have hrow := r.row_le
  have hcol := r.col_le
  rw [mem_def]
  simp only [closest]
  omega

/-- The cell next to the bottom right one, if it is new, brings a whole row or column with it. -/
theorem grownTo_extend (hstep : r.bottomRight.neighbour? d = some c) (hnew : c ∉ r) :
    r.GrownTo d (r.extend c) := by
  have hrow := r.row_le
  have hcol := r.col_le
  have hfirst := hstep
  rw [Coord.neighbour?_eq_some_iff] at hfirst
  rw [mem_def] at hnew
  refine ⟨fun e => ⟨fun he => ?_, ?_⟩, c, ?_, by rwa [mem_def]⟩
  · by_cases hold : e ∈ r
    · exact .inl hold
    · -- a new cell is next to the cell of the region that is closest to it
      refine .inr ⟨r.closest e, r.closest_mem e, Coord.neighbour?_eq_some_iff.mpr ?_⟩
      rw [mem_extend] at he
      rw [mem_def] at hold
      cases d with
      | up | down | left | right =>
        simp only [Direction.rowStep, Direction.colStep, closest] at hfirst ⊢
        omega
  · rintro (hold | ⟨b, hb, hnext⟩)
    · rw [mem_def] at hold
      rw [mem_extend]
      omega
    · rw [Coord.neighbour?_eq_some_iff] at hnext
      rw [mem_def] at hb
      rw [mem_extend]
      cases d with
      | up | down | left | right =>
        simp only [Direction.rowStep, Direction.colStep] at hfirst hnext
        omega
  · rw [mem_extend]
    omega

/-- A step leads forth from the bottom right cell into every region that is grown. -/
theorem GrownTo.exists_neighbour?_mem {r' : Region} (h : r.GrownTo d r')
    (hforth : ¬ r.StepsBack d) : ∃ c ∈ r', r.bottomRight.neighbour? d = some c := by
  obtain ⟨c, hin, hout⟩ := h.proper
  obtain ⟨b, hb, hnext⟩ := ((h.mem_iff c).mp hin).resolve_left hout
  -- the new cell need not be next to the bottom right one, but is in the same new row or column
  have hcell : ∃ t, r.bottomRight.neighbour? d = some t := by
    have hrow := r.row_le
    have hcol := r.col_le
    rw [Coord.neighbour?_eq_some_iff] at hnext
    rw [mem_def] at hb hout
    cases d with
    | up | down =>
      simp only [StepsBack, height] at hforth
      refine ⟨{ r.bottomRight with row := c.row, row_lt := c.row_lt }, ?_⟩
      rw [Coord.neighbour?_eq_some_iff]
      simp only [Direction.rowStep, Direction.colStep] at hnext ⊢
      omega
    | left | right =>
      simp only [StepsBack, width] at hforth
      refine ⟨{ r.bottomRight with col := c.col, col_lt := c.col_lt }, ?_⟩
      rw [Coord.neighbour?_eq_some_iff]
      simp only [Direction.rowStep, Direction.colStep] at hnext ⊢
      omega
  obtain ⟨t, ht⟩ := hcell
  exact ⟨t, (h.mem_iff t).mpr (.inr ⟨_, r.bottomRight_mem, ht⟩), ht⟩

end Region

/-! ### Arrow keys -/

namespace Session

variable {g : Grid} {s : Session} {r : Region} {c : Coord} {d : Direction}

/-- An arrow key with shift makes the selected region `r` grow on the side of its direction and
answers to redraw, or it does nothing at all. -/
def GrowsOrIdles (s : Session) (g : Grid) (r : Region) (d : Direction) : Prop :=
  s.act g (.extend d) = (.idle, s) ∨
    ∃ r', r.GrownTo d r' ∧ s.act g (.extend d) = (.redraw, { s with selection := some r' })

theorem act_extend_of_none (hsel : s.selection = some r)
    (hstep : g.step? d r.bottomRight = none) : s.act g (.extend d) = (.idle, s) := by
  simp [act, advance, Selection.advance?, hsel, hstep]

theorem act_extend_of_some (hsel : s.selection = some r)
    (hstep : g.step? d r.bottomRight = some c) :
    s.act g (.extend d) = (.redraw, { s with selection := some (r.extend c) }) := by
  simp [act, advance, Selection.advance?, hsel, hstep]

/-- Where the step leads back into the region, the answer is to redraw and nothing is changed. -/
theorem act_extend_of_mem (hsel : s.selection = some r)
    (hstep : g.step? d r.bottomRight = some c) (hmem : c ∈ r) :
    s.act g (.extend d) = (.redraw, s) := by
  rw [act_extend_of_some hsel hstep, Region.extend_of_mem hmem, ← hsel]

theorem not_growsOrIdles_of_act_eq (hsel : s.selection = some r)
    (hact : s.act g (.extend d) = (.redraw, s)) : ¬ s.GrowsOrIdles g r d := by
  rintro (hidle | ⟨r', hgrown, hact'⟩)
  · rw [hact] at hidle
    cases hidle
  · rw [hact] at hact'
    have hsame : s.selection = some r' := congrArg selection (congrArg Prod.snd hact')
    obtain rfl : r = r' := Option.some.inj (hsel.symm.trans hsame)
    obtain ⟨c, hin, hout⟩ := hgrown.proper
    exact hout hin

/-- A move selects another region, or does nothing. -/
theorem act_move_eq_redraw_iff (hsel : s.selection = some r) :
    (s.act g (.move d)).1 = .redraw ↔ (s.act g (.move d)).2.selection ≠ s.selection := by
  cases hstep : g.step? d r.bottomRight with
  | none =>
    rw [show s.act g (.move d) = (.idle, s) by
      simp [act, advance, Selection.advance?, hsel, hstep]]
    simp
  | some c =>
    rw [show s.act g (.move d) = (.redraw, { s with selection := some (.single c) }) by
      simp [act, advance, Selection.advance?, hsel, hstep], hsel]
    refine iff_of_true rfl fun hsame => ?_
    -- the step leads from the bottom right cell to another one
    obtain ⟨hnext, -⟩ := Grid.step?_eq_some_iff.mp hstep
    obtain rfl : Region.single c = r := Option.some.inj hsame
    rw [Coord.neighbour?_eq_some_iff] at hnext
    cases d with
    | up | down | left | right =>
      simp only [Region.single, Direction.rowStep, Direction.colStep] at hnext
      omega

/-- A step that leads back into a region on the grid is not refused. -/
theorem exists_step?_mem (hgrid : g.Covers r) (hback : r.StepsBack d) :
    ∃ c, g.step? d r.bottomRight = some c ∧ c ∈ r := by
  obtain ⟨c, hnext⟩ := hback.exists_neighbour?
  have hmem := (Region.neighbour_mem_iff hnext).mpr hback
  exact ⟨c, Grid.step?_eq_some_iff.mpr ⟨hnext, hgrid.2 c hmem⟩, hmem⟩

/-- A step that leads forth brings a whole row or column. -/
theorem grownTo_of_step? (hstep : g.step? d r.bottomRight = some c) (hforth : ¬ r.StepsBack d) :
    r.GrownTo d (r.extend c) := by
  obtain ⟨hnext, -⟩ := Grid.step?_eq_some_iff.mp hstep
  exact Region.grownTo_extend hnext fun hmem => hforth ((Region.neighbour_mem_iff hnext).mp hmem)

/-- Where the step leads forth, the region grows unless the grid ends there. -/
theorem act_extend_eq_idle_iff (hsel : s.selection = some r) (hgrid : g.Covers r)
    (hforth : ¬ r.StepsBack d) :
    s.act g (.extend d) = (.idle, s) ↔ ¬ ∃ r', r.GrownTo d r' ∧ g.Covers r' := by
  constructor
  · rintro hidle ⟨r', hgrown, hcovers⟩
    obtain ⟨c, hin, hnext⟩ := hgrown.exists_neighbour?_mem hforth
    have hstep := Grid.step?_eq_some_iff.mpr ⟨hnext, hcovers.2 c hin⟩
    rw [act_extend_of_some hsel hstep] at hidle
    cases hidle
  · intro hends
    cases hstep : g.step? d r.bottomRight with
    | none => exact act_extend_of_none hsel hstep
    | some c =>
      have hon := (Grid.step?_eq_some_iff.mp hstep).2
      exact absurd ⟨_, grownTo_of_step? hstep hforth, hgrid.extend hon⟩ hends

/-- **When an arrow key with shift makes the region grow or does nothing**: always, unless the step
leads back into the region. Then the answer is to redraw, and nothing is changed. Where the step
leads forth, nothing is done just when no grown region is on the grid. Without shift the answer is
to redraw just when another region is selected. -/
theorem growsOrIdles_iff (hsel : s.selection = some r) (hgrid : g.Covers r) (d : Direction) :
    (s.GrowsOrIdles g r d ↔ ¬ r.StepsBack d) ∧
    (r.StepsBack d → s.act g (.extend d) = (.redraw, s)) ∧
    (¬ r.StepsBack d →
      (s.act g (.extend d) = (.idle, s) ↔ ¬ ∃ r', r.GrownTo d r' ∧ g.Covers r')) ∧
    ((s.act g (.move d)).1 = .redraw ↔ (s.act g (.move d)).2.selection ≠ s.selection) := by
  have hunchanged (hback : r.StepsBack d) : s.act g (.extend d) = (.redraw, s) := by
    obtain ⟨c, hstep, hmem⟩ := exists_step?_mem hgrid hback
    exact act_extend_of_mem hsel hstep hmem
  refine ⟨⟨fun hgrows hback => ?_, fun hforth => ?_⟩, hunchanged,
    act_extend_eq_idle_iff hsel hgrid, act_move_eq_redraw_iff hsel⟩
  · exact not_growsOrIdles_of_act_eq hsel (hunchanged hback) hgrows
  · cases hstep : g.step? d r.bottomRight with
    | none => exact .inl (act_extend_of_none hsel hstep)
    | some c => exact .inr ⟨_, grownTo_of_step? hstep hforth, act_extend_of_some hsel hstep⟩

/-! ### Two cells of a column

On a grid of two columns and two rows, the cells of the first column are selected by a click and one
with shift. Their region touches the upper edge of the grid. -/

namespace ColumnSelected

/-- The cell `A2`, below the first one. -/
def last : Coord := (Coord.origin.neighbour? .down).get (by decide)

/-- The region `A1:A2`. -/
def region : Region := .spanning .origin last

/-- The two clicks. -/
def commands : List Command := [.click .origin false, .click last true]

/-- The session after the clicks. -/
def session : Session := ((Workbook.blank .small).run commands).session

theorem selection_session : session.selection = some region := by decide

theorem covers_region : Grid.small.Covers region := Grid.covers_iff.mpr (by decide)

end ColumnSelected

/-- To the right the region grows, downwards nothing is done as the grid ends there, and upwards it
is only drawn again. -/
theorem columnSelected_growsOrIdles :
    ColumnSelected.session.selection = some ColumnSelected.region ∧
    Grid.small.Covers ColumnSelected.region ∧
    ColumnSelected.session.GrowsOrIdles .small ColumnSelected.region .right ∧
    (¬ ∃ r, ColumnSelected.region.GrownTo .down r ∧ Grid.small.Covers r) ∧
    ColumnSelected.session.act .small (.extend .up) = (.redraw, ColumnSelected.session) := by
  have hsel := ColumnSelected.selection_session
  have hgrid := ColumnSelected.covers_region
  have hright := (growsOrIdles_iff hsel hgrid .right).1
  have hdown := (growsOrIdles_iff hsel hgrid .down).2.2.1 id
  have hup := (growsOrIdles_iff hsel hgrid .up).2.1
  exact ⟨hsel, hgrid, hright.mpr id, hdown.mp (by decide), hup (by decide)⟩

/-- There is no row above the two cells, and the key for it is answered as if something had been
done. -/
theorem extendUp_not_growsOrIdles :
    ColumnSelected.session.selection = some ColumnSelected.region ∧
    Grid.small.Covers ColumnSelected.region ∧
    (ColumnSelected.session.act .small (.extend .up)).1 = .redraw ∧
    (ColumnSelected.session.act .small (.extend .up)).2.selection =
      ColumnSelected.session.selection ∧
    ¬ ColumnSelected.session.GrowsOrIdles .small ColumnSelected.region .up := by
  have hact : ColumnSelected.session.act .small (.extend .up) =
      (.redraw, ColumnSelected.session) := by decide
  refine ⟨ColumnSelected.selection_session, ColumnSelected.covers_region, ?_, ?_, ?_⟩
  · rw [hact]
  · rw [hact]
  · exact not_growsOrIdles_of_act_eq ColumnSelected.selection_session hact

end Session

end Worksheet
