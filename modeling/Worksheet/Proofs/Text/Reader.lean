import Worksheet.Text.Reader

/-!
# What readers take

For every reader there is one equivalence that says when it reads something, in terms of how the
text is put together. Nothing is lost in reading: what a run takes and what it leaves make up the
text, and the rest begins with a character that the run could not take. A larger reader then needs
no more than the equivalences of its parts.

## Main definitions

* `Reader.Stops` — a text goes on with no character of a class

## Main results

* `Reader.run_eq_some_iff`, `Reader.run1_eq_some_iff` — a run, and where it stops
* `Reader.pair_eq_some_iff`, `Reader.between_eq_some_iff` — readers one after another
* `Reader.optional_eq_some_iff`, `Reader.either_eq_some_iff` — a reader that may fail
* `Reader.whole?_eq_some_iff` — a text that is read to its end
-/

namespace Worksheet

namespace Reader

variable {α β γ : Type} {p : Char → Bool} {text rest taken : List Char} {a : α} {b : β}

/-- The text is at its end or goes on with a character that is not of the class. -/
def Stops (p : Char → Bool) (text : List Char) : Prop := ∀ c ∈ text.head?, p c = false

theorem stops_nil : Stops p [] := by
  rintro c ⟨⟩

theorem stops_cons {c : Char} : Stops p (c :: rest) ↔ p c = false := by
  simp [Stops]

/-- A text that is put together stops where its first part does, if that part is not empty. -/
theorem stops_append (h : taken ≠ []) (hstops : ∀ c ∈ taken, p c = false) :
    Stops p (taken ++ rest) := by
  cases taken with
  | nil => exact absurd rfl h
  | cons c taken => exact stops_cons.mpr (hstops c (List.mem_cons_self ..))

theorem stops_dropWhile (p : Char → Bool) (text : List Char) : Stops p (text.dropWhile p) := by
  intro c hc
  have hhead := List.head?_dropWhile_not p text
  rw [Option.mem_def.mp hc] at hhead
  exact hhead

/-! ### Characters -/

theorem char_eq_some_iff {c d : Char} :
    char c text = some (d, rest) ↔ d = c ∧ text = c :: rest := by
  cases text with
  | nil => simp [char]
  | cons e text =>
    by_cases h : e = c
    · subst h
      simp [char, eq_comm]
    · simp [char, h]

theorem oneOf_eq_some_iff {chars : List Char} {d : Char} :
    oneOf chars text = some (d, rest) ↔ d ∈ chars ∧ text = d :: rest := by
  cases text with
  | nil => simp [oneOf]
  | cons e text =>
    by_cases h : e ∈ chars
    · simp only [oneOf, h, if_true, Option.some.injEq, Prod.mk.injEq, List.cons.injEq]
      constructor
      · rintro ⟨rfl, rfl⟩
        exact ⟨h, rfl, rfl⟩
      · rintro ⟨-, rfl, rfl⟩
        exact ⟨rfl, rfl⟩
    · simp only [oneOf, h, if_false, reduceCtorEq, List.cons.injEq, false_iff]
      rintro ⟨hd, rfl, -⟩
      exact h hd

/-- **A run takes characters of its class up to where they stop.** -/
theorem run_eq_some_iff :
    run p text = some (taken, rest) ↔
      text = taken ++ rest ∧ (∀ c ∈ taken, p c = true) ∧ Stops p rest := by
  constructor
  · intro h
    obtain ⟨rfl, rfl⟩ := Prod.mk.inj (Option.some.inj h)
    exact ⟨List.takeWhile_append_dropWhile.symm, List.all_eq_true.mp List.all_takeWhile,
      stops_dropWhile p text⟩
  · rintro ⟨rfl, htaken, hrest⟩
    rw [run, List.takeWhile_append_of_pos htaken, List.dropWhile_append_of_pos htaken]
    cases rest with
    | nil => simp
    | cons c rest => simp [stops_cons.mp hrest]

theorem run1_eq_some_iff :
    run1 p text = some (taken, rest) ↔
      taken ≠ [] ∧ text = taken ++ rest ∧ (∀ c ∈ taken, p c = true) ∧ Stops p rest := by
  rw [run1]
  split
  · rename_i hnil
    simp only [reduceCtorEq, false_iff]
    rintro ⟨hne, h⟩
    obtain ⟨rfl, -⟩ := Prod.mk.inj (Option.some.inj (run_eq_some_iff.mpr h))
    exact hne hnil
  · rename_i hne
    rw [run_eq_some_iff]
    constructor
    · intro h
      refine ⟨?_, h⟩
      obtain ⟨rfl, -⟩ := Prod.mk.inj (Option.some.inj (run_eq_some_iff.mpr h))
      exact hne
    · exact And.right

/-- A run that begins with characters of its class takes them all, and with them those that
follow. -/
theorem exists_run_append (htaken : ∀ c ∈ taken, p c = true) (tail : List Char) :
    ∃ more rest, tail = more ++ rest ∧ (∀ c ∈ more, p c = true) ∧
      run p (taken ++ tail) = some (taken ++ more, rest) := by
  have hmore : ∀ c ∈ tail.takeWhile p, p c = true := List.all_eq_true.mp List.all_takeWhile
  refine ⟨tail.takeWhile p, tail.dropWhile p, List.takeWhile_append_dropWhile.symm, hmore, ?_⟩
  refine run_eq_some_iff.mpr ⟨?_, ?_, stops_dropWhile p tail⟩
  · rw [List.append_assoc, List.takeWhile_append_dropWhile]
  · intro c hc
    exact (List.mem_append.mp hc).elim (htaken c) (hmore c)

theorem exists_run1_append (h : taken ≠ []) (htaken : ∀ c ∈ taken, p c = true)
    (tail : List Char) :
    ∃ more rest, tail = more ++ rest ∧ (∀ c ∈ more, p c = true) ∧
      run1 p (taken ++ tail) = some (taken ++ more, rest) := by
  obtain ⟨more, rest, htail, hmore, hrun⟩ := exists_run_append htaken tail
  exact ⟨more, rest, htail, hmore,
    run1_eq_some_iff.mpr ⟨by simp [h], run_eq_some_iff.mp hrun⟩⟩

/-! ### One reader after another -/

theorem map_eq_some_iff {f : α → β} {reader : Reader α} :
    reader.map f text = some (b, rest) ↔ ∃ a, reader text = some (a, rest) ∧ f a = b := by
  simp only [map, Option.map_eq_some_iff, Prod.exists, Prod.mk.injEq]
  constructor
  · rintro ⟨a, _, h, hb, rfl⟩
    exact ⟨a, h, hb⟩
  · rintro ⟨a, h, hb⟩
    exact ⟨a, rest, h, hb, rfl⟩

theorem pair_eq_some_iff {first : Reader α} {second : Reader β} :
    first.pair second text = some ((a, b), rest) ↔
      ∃ middle, first text = some (a, middle) ∧ second middle = some (b, rest) := by
  simp only [pair, Option.bind_eq_bind, Option.bind_eq_some_iff, Prod.exists]
  constructor
  · rintro ⟨a', middle, hfirst, b', rest', hsecond, h⟩
    cases h
    exact ⟨middle, hfirst, hsecond⟩
  · rintro ⟨middle, hfirst, hsecond⟩
    exact ⟨a, middle, hfirst, b, rest, hsecond, rfl⟩

theorem preceded_eq_some_iff {before : Reader α} {reader : Reader β} :
    before.preceded reader text = some (b, rest) ↔
      ∃ a middle, before text = some (a, middle) ∧ reader middle = some (b, rest) := by
  rw [preceded, map_eq_some_iff, Prod.exists]
  simp only [pair_eq_some_iff, exists_eq_right]

theorem between_eq_some_iff {before : Reader α} {reader : Reader β} {after : Reader γ} :
    before.between reader after text = some (b, rest) ↔
      ∃ a middle last c, before text = some (a, middle) ∧ reader middle = some (b, last) ∧
        after last = some (c, rest) := by
  rw [between, map_eq_some_iff, Prod.exists]
  simp only [preceded_eq_some_iff, pair_eq_some_iff]
  constructor
  · rintro ⟨b', c, ⟨a, middle, hbefore, last, hreader, hafter⟩, rfl⟩
    exact ⟨a, middle, last, c, hbefore, hreader, hafter⟩
  · rintro ⟨a, middle, last, c, hbefore, hreader, hafter⟩
    exact ⟨b, c, ⟨a, middle, hbefore, last, hreader, hafter⟩, rfl⟩

/-- A reader that may fail always reads: where it fails, it takes nothing. -/
theorem optional_eq_some_iff {reader : Reader α} {read? : Option α} :
    reader.optional text = some (read?, rest) ↔
      (∃ a, reader text = some (a, rest) ∧ read? = some a) ∨
        (reader text = none ∧ read? = none ∧ rest = text) := by
  cases h : reader text with
  | none => simp [optional, h, eq_comm]
  | some read =>
    obtain ⟨a, after⟩ := read
    simp only [optional, h, Option.some.injEq, Prod.mk.injEq, reduceCtorEq, false_and, or_false]
    constructor
    · rintro ⟨rfl, rfl⟩
      exact ⟨a, ⟨rfl, rfl⟩, rfl⟩
    · rintro ⟨a', ⟨rfl, rfl⟩, rfl⟩
      exact ⟨rfl, rfl⟩

/-- The second reader is asked only where the first one fails. -/
theorem either_eq_some_iff {first second : Reader α} :
    either first second text = some (a, rest) ↔
      first text = some (a, rest) ∨ first text = none ∧ second text = some (a, rest) := by
  cases h : first text with
  | none => simp [either, h]
  | some read => simp [either, h]

/-- What a reader takes is what it leaves the rest of, whatever it reads there. -/
theorem taken_append_eq_some_iff {reader : Reader α} :
    reader.taken (taken ++ rest) = some (taken, rest) ↔
      ∃ a, reader (taken ++ rest) = some (a, rest) := by
  simp only [Reader.taken, Option.map_eq_some_iff, Prod.exists, Prod.mk.injEq]
  constructor
  · rintro ⟨a, _, h, -, rfl⟩
    exact ⟨a, h⟩
  · rintro ⟨a, h⟩
    refine ⟨a, rest, h, ?_, rfl⟩
    rw [List.length_append, Nat.add_sub_cancel]
    exact List.take_left

/-- The characters that a reader takes are the text without the rest, if the rest is its end. -/
theorem taken_eq_some_iff {reader : Reader α}
    (hreader : ∀ a rest, reader text = some (a, rest) → ∃ taken, text = taken ++ rest) :
    reader.taken text = some (taken, rest) ↔
      text = taken ++ rest ∧ ∃ a, reader text = some (a, rest) := by
  constructor
  · intro h
    have hread := h
    simp only [Reader.taken, Option.map_eq_some_iff, Prod.exists, Prod.mk.injEq] at hread
    obtain ⟨a, _, hread, -, rfl⟩ := hread
    obtain ⟨front, rfl⟩ := hreader a _ hread
    have hfront := taken_append_eq_some_iff.mpr ⟨a, hread⟩
    rw [h] at hfront
    obtain ⟨rfl, -⟩ := Prod.mk.inj (Option.some.inj hfront)
    exact ⟨rfl, a, hread⟩
  · rintro ⟨rfl, h⟩
    exact taken_append_eq_some_iff.mpr h

/-- Where all that a reader may take is of one form, so are the characters that it takes. -/
theorem of_taken_eq_some {reader : Reader α} (form : List Char → Prop)
    (hreader : ∀ a rest, reader text = some (a, rest) → ∃ taken, text = taken ++ rest ∧ form taken)
    (h : reader.taken text = some (taken, rest)) : text = taken ++ rest ∧ form taken := by
  rw [taken_eq_some_iff fun a rest h => (hreader a rest h).imp fun _ => And.left] at h
  obtain ⟨rfl, a, hread⟩ := h
  obtain ⟨taken', heq, hform⟩ := hreader a rest hread
  exact ⟨rfl, List.append_cancel_right heq ▸ hform⟩

theorem whole?_eq_some_iff {reader : Reader α} :
    reader.whole? text = some a ↔ reader text = some (a, []) := by
  rw [whole?]
  split
  · rename_i h
    simp [h]
  · rename_i h
    simp [h]
  · rename_i h
    simp [h]

end Reader

end Worksheet
