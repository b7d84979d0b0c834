import Mathlib

/-!
# What a computation yields

A property of every result of a computation that may fail.  The equivalences follow it through the
steps of a computation; a step that fails leaves nothing to show.
-/

namespace InSitu

variable {ε α β : Type} {P : α → Prop} {Q : β → Prop}

/-- The result of a computation, if it has one, has a property. -/
def Yields (P : α → Prop) (computation : Except ε α) : Prop :=
  ∀ result, computation = .ok result → P result

@[simp]
theorem yields_ok {result : α} : Yields P (.ok result : Except ε α) ↔ P result := by
  constructor
  · intro yields
    exact yields result rfl
  · intro holds other same
    cases same
    exact holds

@[simp]
theorem yields_pure {result : α} : Yields P (pure result : Except ε α) ↔ P result :=
  yields_ok

@[simp]
theorem yields_error (fault : ε) : Yields P (.error fault : Except ε α) := by
  intro result impossible
  cases impossible

theorem yields_of_forall {computation : Except ε α} (holds : ∀ result, P result) :
    Yields P computation :=
  fun result _ => holds result

theorem Yields.imp {R : α → Prop} {computation : Except ε α} (yields : Yields P computation)
    (implies : ∀ result, P result → R result) : Yields R computation :=
  fun result computed => implies result (yields result computed)

@[simp]
theorem yields_bind {first : Except ε α} {next : α → Except ε β} :
    Yields Q (first >>= next) ↔ ∀ result, first = .ok result → Yields Q (next result) := by
  cases first with
  | error fault =>
      simp [bind, Except.bind]
  | ok found =>
      simp [bind, Except.bind]

@[simp]
theorem yields_map {first : Except ε α} {step : α → β} :
    Yields Q (first.map step) ↔ ∀ result, first = .ok result → Q (step result) := by
  cases first with
  | error fault =>
      simp [Except.map]
  | ok found =>
      simp [Except.map]

@[simp]
theorem yields_functor_map {first : Except ε α} {step : α → β} :
    Yields Q (step <$> first) ↔ ∀ result, first = .ok result → Q (step result) :=
  yields_map

@[simp]
theorem yields_mapError {δ : Type} {computation : Except ε α} {step : ε → δ} :
    Yields P (computation.mapError step) ↔ Yields P computation := by
  cases computation with
  | error fault =>
      simp [Except.mapError]
  | ok result =>
      simp [Except.mapError]

@[simp]
theorem yields_ite {condition : Prop} [Decidable condition] {first second : Except ε α} :
    Yields P (if condition then first else second) ↔
      (condition → Yields P first) ∧ (¬ condition → Yields P second) := by
  split
  · simp [*]
  · simp [*]

theorem yields_mapM {items : List α} {read : α → Except ε β}
    (yields : ∀ item ∈ items, Yields Q (read item)) :
    Yields (fun results => ∀ result ∈ results, Q result) (items.mapM read) := by
  induction items with
  | nil =>
      simp
  | cons item rest inductionHypothesis =>
      have others := inductionHypothesis fun other member =>
        yields other (List.mem_cons_of_mem item member)
      simp only [List.mapM_cons, yields_bind, yields_pure, List.forall_mem_cons]
      intro first isFirst results areResults
      exact ⟨yields item List.mem_cons_self first isFirst, others results areResults⟩

theorem yields_mapM_map {items : List α} {read : α → Except ε β} (reading : α → Option β)
    (yields : ∀ item, Yields (fun result => reading item = some result) (read item)) :
    Yields (fun results => items.map reading = results.map some) (items.mapM read) := by
  induction items with
  | nil =>
      simp
  | cons item rest inductionHypothesis =>
      simp only [List.mapM_cons, yields_bind, yields_pure, List.map_cons, List.cons.injEq]
      intro first isFirst results areResults
      exact ⟨yields item first isFirst, inductionHypothesis results areResults⟩

end InSitu
