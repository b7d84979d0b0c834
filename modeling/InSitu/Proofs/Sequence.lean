/-!
# Reading lists item by item

A list is read if all its items are, and is not if one of them is not.  So it is with checks.
-/

namespace InSitu

/-- A computation of two steps succeeds if both do. -/
theorem bind_eq_ok_iff {ε α β : Type} {first : Except ε α} {next : α → Except ε β} {result : β} :
    first >>= next = .ok result ↔ ∃ found, first = .ok found ∧ next found = .ok result := by
  cases first with
  | error fault =>
      simp [bind, Except.bind]
  | ok found =>
      simp [bind, Except.bind]

/-- It fails if the first step does, or the second one after it. -/
theorem bind_eq_error_iff {ε α β : Type} {first : Except ε α} {next : α → Except ε β} {fault : ε} :
    first >>= next = .error fault ↔
      first = .error fault ∨ ∃ found, first = .ok found ∧ next found = .error fault := by
  cases first with
  | error other =>
      simp [bind, Except.bind]
  | ok found =>
      simp [bind, Except.bind]

/-- Two computations, one after the other, fail if one of them does. -/
theorem exists_both_eq_error_iff {ε α β γ : Type} {first : Except ε α} {second : Except ε β}
    {result : α → β → γ} :
    (∃ fault, (first >>= fun found => second >>= fun other => pure (result found other)) =
        .error fault) ↔
      (∃ fault, first = .error fault) ∨ ∃ fault, second = .error fault := by
  cases first with
  | error fault =>
      simp [bind, Except.bind]
  | ok found =>
      cases second with
      | error fault =>
          simp [bind, Except.bind]
      | ok other =>
          simp [bind, Except.bind, pure, Except.pure]

/-- A list is left alone if each of its items is. -/
theorem map_eq_self_iff {α : Type} {change : α → α} {items : List α} :
    items.map change = items ↔ ∀ item ∈ items, change item = item := by
  have identity : items.map change = items.map id ↔ ∀ item ∈ items, change item = item :=
    List.map_inj_left
  rwa [List.map_id] at identity

theorem length_eq_of_map_eq_map {α β γ : Type} {first : List α} {second : List β} {read : α → γ}
    {readAlso : β → γ} (alike : first.map read = second.map readAlso) :
    first.length = second.length := by
  simpa using congrArg List.length alike

/-- Two ways of reading that agree on all items of a list read the list alike. -/
theorem mapM_congr {μ : Type → Type} [Monad μ] [LawfulMonad μ] {α β : Type} {items : List α}
    {first second : α → μ β} (agree : ∀ item ∈ items, first item = second item) :
    items.mapM first = items.mapM second := by
  induction items with
  | nil =>
      rw [List.mapM_nil, List.mapM_nil]
  | cons item items inductionHypothesis =>
      have rest := inductionHypothesis fun other member =>
        agree other (List.mem_cons_of_mem item member)
      rw [List.mapM_cons, List.mapM_cons, agree item List.mem_cons_self, rest]

/-- Reading a list whose items all have a reading. -/
theorem mapM_eq_pure_map {μ : Type → Type} [Monad μ] [LawfulMonad μ] {α β : Type} {items : List α}
    {read : α → μ β} {reading : α → β} (reads : ∀ item ∈ items, read item = pure (reading item)) :
    items.mapM read = pure (items.map reading) := by
  induction items with
  | nil =>
      rw [List.mapM_nil, List.map_nil]
  | cons item items inductionHypothesis =>
      have first := reads item List.mem_cons_self
      have rest := inductionHypothesis fun other member =>
        reads other (List.mem_cons_of_mem item member)
      rw [List.mapM_cons, first, rest, pure_bind, pure_bind, List.map_cons]

/-- Reading a list whose items all are read as themselves. -/
theorem mapM_eq_pure {μ : Type → Type} [Monad μ] [LawfulMonad μ] {α : Type} {items : List α}
    {read : α → μ α} (reads : ∀ item ∈ items, read item = pure item) :
    items.mapM read = pure items := by
  have mapped := mapM_eq_pure_map reads
  rwa [List.map_id'] at mapped

/-- The readings of items that all have one. -/
theorem exists_map_eq_map_some {α β : Type} {items : List α} {read : α → Option β}
    (reads : ∀ item ∈ items, (read item).isSome = true) :
    ∃ results : List β, items.map read = results.map some := by
  induction items with
  | nil =>
      exact ⟨[], rfl⟩
  | cons item rest inductionHypothesis =>
      rw [List.forall_mem_cons] at reads
      obtain ⟨first, isFirst⟩ := Option.isSome_iff_exists.mp reads.1
      obtain ⟨others, areOthers⟩ := inductionHypothesis reads.2
      exact ⟨first :: others, by rw [List.map_cons, isFirst, areOthers, List.map_cons]⟩

/-- A list is read if each of its items is. -/
theorem exists_mapM_eq_ok {ε α β : Type} {P : β → Prop} {items : List α} {read : α → Except ε β}
    (reads : ∀ item ∈ items, ∃ result, read item = .ok result ∧ P result) :
    ∃ results, items.mapM read = .ok results ∧ results.length = items.length ∧
      ∀ result ∈ results, P result := by
  induction items with
  | nil =>
      exact ⟨[], rfl, rfl, fun _ member => False.elim (List.not_mem_nil member)⟩
  | cons item rest inductionHypothesis =>
      rw [List.forall_mem_cons] at reads
      obtain ⟨first, isFirst, holds⟩ := reads.1
      obtain ⟨others, areOthers, sameLength, othersHold⟩ := inductionHypothesis reads.2
      refine ⟨first :: others, ?_, congrArg (· + 1) sameLength, ?_⟩
      · rw [List.mapM_cons, isFirst, areOthers]
        rfl
      · exact List.forall_mem_cons.mpr ⟨holds, othersHold⟩

/-- Reading a list fails at its first item without a reading. -/
theorem mapM_eq_error_of_split {ε α β : Type} {front rest : List α} {item : α}
    {read : α → Except ε β} {fault : ε}
    (reads : ∀ earlier ∈ front, ∃ result, read earlier = .ok result)
    (fails : read item = .error fault) : (front ++ item :: rest).mapM read = .error fault := by
  have readable : ∀ earlier ∈ front, ∃ result, read earlier = .ok result ∧ True :=
    fun earlier member => (reads earlier member).imp fun _ isRead => ⟨isRead, trivial⟩
  obtain ⟨results, areResults, _⟩ := exists_mapM_eq_ok readable
  rw [List.mapM_append, List.mapM_cons, areResults, fails]
  rfl

theorem mapM_eq_none_of_mem {α β : Type} {items : List α} {read : α → Option β} {item : α}
    (member : item ∈ items) (unreadable : read item = none) : items.mapM read = none := by
  induction items with
  | nil =>
      cases member
  | cons first rest inductionHypothesis =>
      rw [List.mapM_cons]
      rcases List.mem_cons.mp member with rfl | later
      · rw [unreadable]
        rfl
      · rw [inductionHypothesis later]
        cases read first <;> rfl

theorem exists_of_mem_mapM {α β : Type} {items : List α} {read : α → Option β} {results : List β}
    (mapped : items.mapM read = some results) {result : β} (member : result ∈ results) :
    ∃ item ∈ items, read item = some result := by
  induction items generalizing results with
  | nil =>
      cases mapped
      cases member
  | cons first rest inductionHypothesis =>
      rw [List.mapM_cons] at mapped
      obtain ⟨found, isFound, mappedRest⟩ := Option.bind_eq_some_iff.mp mapped
      obtain ⟨others, areOthers, same⟩ := Option.bind_eq_some_iff.mp mappedRest
      cases same
      rcases List.mem_cons.mp member with rfl | later
      · exact ⟨first, List.mem_cons_self, isFound⟩
      · obtain ⟨item, isItem, reads⟩ := inductionHypothesis areOthers later
        exact ⟨item, List.mem_cons_of_mem first isItem, reads⟩

theorem exists_mapM_eq_error_iff {ε α β : Type} {items : List α} {read : α → Except ε β} :
    (∃ fault, items.mapM read = .error fault) ↔
      ∃ item ∈ items, ∃ fault, read item = .error fault := by
  induction items with
  | nil =>
      simp [pure, Except.pure]
  | cons first rest inductionHypothesis =>
      rw [List.mapM_cons, exists_both_eq_error_iff, inductionHypothesis]
      simp only [List.mem_cons, exists_eq_or_imp]

theorem forM_eq_ok_iff {ε α : Type} {items : List α} {check : α → Except ε Unit} :
    items.forM check = .ok () ↔ ∀ item ∈ items, check item = .ok () := by
  induction items with
  | nil =>
      simp [pure, Except.pure]
  | cons first rest inductionHypothesis =>
      rw [List.forM, List.forall_mem_cons, ← inductionHypothesis]
      cases check first with
      | error fault =>
          simp [bind, Except.bind]
      | ok result =>
          simp [bind, Except.bind]

/-- A failed check of a list is the failed check of an item. -/
theorem exists_of_forM_eq_error {ε α : Type} {items : List α} {check : α → Except ε Unit}
    {fault : ε} (failed : items.forM check = .error fault) :
    ∃ item ∈ items, check item = .error fault := by
  induction items with
  | nil =>
      cases failed
  | cons first rest inductionHypothesis =>
      rw [List.forM] at failed
      cases checked : check first with
      | error other =>
          rw [checked] at failed
          cases failed
          exact ⟨first, List.mem_cons_self, checked⟩
      | ok result =>
          rw [checked] at failed
          obtain ⟨item, member, fails⟩ := inductionHypothesis failed
          exact ⟨item, List.mem_cons_of_mem first member, fails⟩

end InSitu
