import Mathlib.Data.Set.Card
import Worksheet.Proofs.Binary64.Arithmetic
import Worksheet.Proofs.Evaluation
import Worksheet.Proofs.Workbook.View

/-!
# What evaluation comes to

A formula that was read either has a number for its value, or it needs a number and its region holds
none. Which of the two is the case is a matter of the cells that hold a number themselves. These are
not the entries of a list that a scan happens to give, but a set of cells: to count the list is to
count the set, as a scan comes to each cell once.

A formula whose text could not be read has its error for its value, whatever the sheet holds.

## Main definitions

* `Sheet.numberCells` — the cells of a region that hold a number

## Main results

* `Aggregate.apply_eq_error_iff` — when a function has no value
* `Aggregate.average_roundsTo` — an average is the nearest number
* `Sheet.length_numbers` — there are as many numbers in a region as cells that hold one
* `Sheet.evaluate_classified` — which value a formula has, and which cells show an error
-/

namespace Worksheet

namespace Aggregate

variable {f : Aggregate} {xs : List Binary64}

/-- An average, a minimum or a maximum needs a number, and nothing else can go wrong. -/
theorem apply_eq_error_iff {error : CellError} :
    f.apply xs = .error error ↔
      (f ∈ [average, minimum, maximum] ∧ xs = []) ∧ .emptyAggregate f = error := by
  cases f <;> cases xs <;> simp [apply]

theorem exists_number_of_apply_ne_error (h : f.apply xs ≠ .error (.emptyAggregate f)) :
    ∃ x, f.apply xs = .number x := by
  cases hvalue : f.apply xs with
  | number x => exact ⟨x, rfl⟩
  | text t => cases f <;> cases xs <;> cases hvalue
  | error e =>
    obtain ⟨-, rfl⟩ := apply_eq_error_iff.mp hvalue
    exact absurd hvalue h

/-- **An average is the number nearest to the total divided by the count**, if the total is
finite. -/
theorem average_roundsTo {negative : Bool} {rank : Fin 0x7ff0000000000000} (hxs : xs ≠ [])
    (hlength : xs.length < 0x20000000000000) (htotal : Binary64.total xs = .finite negative rank) :
    ∃ z, average.apply xs = .number z ∧
      Binary64.RoundsTo (Binary64.signedMagnitude negative rank / xs.length) negative z := by
  obtain ⟨count, hcount, hmagnitude⟩ := Binary64.exists_ofNat_eq hlength
  have hpos : 0 < xs.length := List.length_pos_iff.mpr hxs
  have hne : count ≠ 0 := by
    rintro rfl
    rw [Fin.val_zero, Binary64.magnitude_zero, eq_comm, Nat.cast_eq_zero] at hmagnitude
    omega
  have hdivisor : Binary64.signedMagnitude false count = xs.length := by
    rw [Binary64.signedMagnitude, if_neg Bool.false_ne_true, hmagnitude]
  have hrounds := Binary64.roundsTo_div negative false rank hne
  rw [Bool.bne_false, hdivisor, ← hcount, ← htotal] at hrounds
  obtain ⟨x, rest, rfl⟩ := List.exists_cons_of_ne_nil hxs
  exact ⟨_, rfl, hrounds⟩

end Aggregate

namespace Sheet

variable {s : Sheet} {r : Region} {f : Formula}

/-! ### The cells that hold a number -/

/-- The cells of a region that hold a number. -/
def numberCells (s : Sheet) (r : Region) : Set Coord :=
  {c | c ∈ r ∧ ∃ x, s.get? c = some (.number x)}

theorem isSome_number?_iff {c : Coord} :
    (s.number? c).isSome ↔ ∃ x, s.get? c = some (.number x) := by
  rw [number?]
  cases s.get? c with
  | none => simp
  | some content => cases content <;> simp [Content.number?]

theorem coe_toFinset_filter_cells (s : Sheet) (r : Region) :
    ((r.cells.filter fun c => (s.number? c).isSome).toFinset : Set Coord) = s.numberCells r := by
  ext c
  simp only [List.coe_toFinset, List.mem_filter, Region.mem_cells, isSome_number?_iff, numberCells,
    Set.mem_ofPred_eq]

/-- Each cell that holds a number is come to once. -/
theorem length_numbers (s : Sheet) (r : Region) :
    (s.numbers r).length = (s.numberCells r).ncard := by
  have hnodup : (r.cells.filter fun c => (s.number? c).isSome).Nodup :=
    (r.pairwise_cells.imp Coord.ne_of_lt).filter _
  rw [← coe_toFinset_filter_cells, Set.ncard_coe_finset, List.toFinset_card_of_nodup hnodup,
    numbers_eq_filterMap_cells, List.length_filterMap_eq_countP, List.countP_eq_length_filter]

theorem finite_numberCells (s : Sheet) (r : Region) : (s.numberCells r).Finite := by
  rw [← coe_toFinset_filter_cells]
  exact Finset.finite_toSet _

theorem numbers_eq_nil_iff : s.numbers r = [] ↔ s.numberCells r = ∅ := by
  rw [← List.length_eq_zero_iff, length_numbers, Set.ncard_eq_zero (finite_numberCells s r)]

/-! ### Values of formulas -/

theorem evaluate_of_error?_eq_none (h : f.error? = none) :
    s.evaluate f = f.function.apply (s.numbers f.region) := by
  rw [evaluate, h]

theorem evaluate_of_error?_eq_some {error : CellError} (h : f.error? = some error) :
    s.evaluate f = .error error := by
  rw [evaluate, h]

/-- **Which value a formula has.** One that was read has no value if it needs a number and no cell
of its region holds one, and in every other case its value is a number. A count is the number of
cells that hold a number, rounded if there are more than `2 ^ 53` of them. Where there are none, the
sum and the count are zero. One that was not read has its error for its value. A cell shows the code
of an error if it holds a formula that evaluates to this error. -/
theorem evaluate_classified :
    (∀ (s : Sheet) (f : Formula), f.error? = none →
      (s.evaluate f = .error (.emptyAggregate f.function) ↔
        f.function ∈ [.average, .minimum, .maximum] ∧ s.numberCells f.region = ∅) ∧
      (s.evaluate f ≠ .error (.emptyAggregate f.function) → ∃ x, s.evaluate f = .number x) ∧
      (f.function = .count → ∃ x, s.evaluate f = .number x ∧
        Binary64.RoundsTo (s.numberCells f.region).ncard false x ∧
        ((s.numberCells f.region).ncard < 0x20000000000000 →
          x.toEReal? = some (((s.numberCells f.region).ncard : ℝ) : EReal))) ∧
      (f.function ∈ [.sum, .count] → s.numberCells f.region = ∅ →
        ∃ x, s.evaluate f = .number x ∧ x.toEReal? = some 0)) ∧
    (∀ (s : Sheet) (f : Formula) (error : CellError), f.error? = some error →
      s.evaluate f = .error error) ∧
    (∀ (w : Workbook) (c : Coord) (code : String),
      (w.view c).error.map CellError.code = some code ↔
        ∃ f error, w.sheet.get? c = some (.formula f) ∧ w.sheet.evaluate f = .error error ∧
          error.code = code) := by
  refine ⟨fun s f hread => ?_, fun s f error => evaluate_of_error?_eq_some, fun w c code => ?_⟩
  · rw [evaluate_of_error?_eq_none hread]
    refine ⟨?_, Aggregate.exists_number_of_apply_ne_error, fun hcount => ?_,
      fun hfunction hempty => ?_⟩
    · rw [Aggregate.apply_eq_error_iff, numbers_eq_nil_iff]
      exact and_iff_left rfl
    · rw [hcount, ← length_numbers]
      exact ⟨_, rfl, Binary64.roundsTo_ofNat _, Binary64.toEReal?_ofNat⟩
    · rw [numbers_eq_nil_iff.mpr hempty]
      -- the total starts from a zero, and the count of nothing is rounded to one
      simp only [List.mem_cons, List.not_mem_nil, or_false] at hfunction
      rcases hfunction with hsum | hcount
      · rw [hsum]
        exact ⟨_, rfl, Binary64.toEReal?_zero true⟩
      · rw [hcount]
        exact ⟨_, rfl, Binary64.toEReal?_zero false⟩
  · simp only [Option.map_eq_some_iff, Workbook.view_error_eq_some_iff]
    constructor
    · rintro ⟨error, ⟨f, hf, hvalue⟩, hcode⟩
      exact ⟨f, error, hf, hvalue, hcode⟩
    · rintro ⟨f, error, hf, hvalue, hcode⟩
      exact ⟨error, ⟨f, hf, hvalue⟩, hcode⟩

namespace Mixed

/-- The cell `B1`. -/
def right : Coord := (Coord.ofNat? 0 1).getD .origin

/-- The cell `A2`. -/
def below : Coord := (Coord.ofNat? 1 0).getD .origin

/-- The average of the first column, where nothing is a number itself. -/
def average : Formula := ⟨"=avg(A1:A2)", .call .average (.spanning .origin below)⟩

/-- The sum of the same cells. -/
def total : Formula := ⟨"=sum(A1:A2)", .call .sum (.spanning .origin below)⟩

/-- How many numbers there are in the first two rows and columns. -/
def count : Formula := ⟨"=count(B1:A2)", .call .count (.spanning right below)⟩

/-- A call of a function that there is none. -/
def unread : Formula := ⟨"=product(A1)", .invalid (.unknownFunction "product")⟩

/-- A text that looks like a number, a number beside it, and the average of the column below. -/
def sheet : Sheet :=
  ((Sheet.empty.set .origin (.text "1")).set right (.number (.ofNat 2))).set below
    (.formula average)

end Mixed

/-- A text and a formula are no numbers, whatever they look like. -/
theorem mixed_evaluate :
    Mixed.average.error? = none ∧ Mixed.total.error? = none ∧ Mixed.count.error? = none ∧
    Mixed.sheet.evaluate Mixed.average = .error (.emptyAggregate .average) ∧
    (∃ x, Mixed.sheet.evaluate Mixed.total = .number x ∧ x.toEReal? = some 0) ∧
    (∃ x, Mixed.sheet.evaluate Mixed.count = .number x ∧ Binary64.RoundsTo (1 : ℕ) false x ∧
      x.toEReal? = some (((1 : ℕ) : ℝ) : EReal)) ∧
    Mixed.unread.error? = some (.unknownFunction "product") ∧
    Mixed.sheet.evaluate Mixed.unread = .error (.unknownFunction "product") ∧
    (((Workbook.blank .standard).withSheet Mixed.sheet).view Mixed.below).error.map
      CellError.code = some "EMPTY_AGGREGATE" := by
  have hempty : Mixed.sheet.numberCells Mixed.average.region = ∅ :=
    numbers_eq_nil_iff.mp (by decide +kernel)
  have hone : (Mixed.sheet.numberCells Mixed.count.region).ncard = 1 := by
    rw [← length_numbers]
    decide +kernel
  obtain ⟨hread, hinvalid, hview⟩ := evaluate_classified
  have haverage : Mixed.sheet.evaluate Mixed.average = .error (.emptyAggregate .average) :=
    (hread _ Mixed.average rfl).1.mpr ⟨by decide, hempty⟩
  have htotal := (hread Mixed.sheet Mixed.total rfl).2.2.2 (by decide) hempty
  obtain ⟨x, hcount, hrounds, hexact⟩ := (hread Mixed.sheet Mixed.count rfl).2.2.1 rfl
  rw [hone] at hrounds hexact
  exact ⟨rfl, rfl, rfl, haverage, htotal, ⟨x, hcount, hrounds, hexact (by decide)⟩, rfl,
    hinvalid _ _ _ rfl, (hview _ _ _).mpr ⟨Mixed.average, _, by decide, haverage, rfl⟩⟩

end Sheet

end Worksheet
