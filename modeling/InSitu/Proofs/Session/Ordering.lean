import InSitu.Proofs.Session.Run
import InSitu.Proofs.Session.Surroundings

/-!
# Expressions in any order

An expression that recalls nothing has the same answer before and after the others of its cycle, and
recording it touches its own timeline only.  So what such expressions record is said without their
order: each has its answer at the start of the cycle, and its timeline is behind the dataset.  A
cycle of them succeeds in all orders or in none, and records the same.
-/

namespace InSitu

/-- No operation of a graph recalls what was recorded. -/
def Graph.RecallsNothing (graph : Graph) : Prop :=
  ∀ node ∈ graph.nodes.values, node.operation.recalls = false

instance (graph : Graph) : Decidable graph.RecallsNothing :=
  inferInstanceAs (Decidable (∀ node ∈ graph.nodes.values, node.operation.recalls = false))

theorem Graph.RecallsNothing.answer_eq {graph : Graph} (recallsNothing : graph.RecallsNothing)
    (first second : ValueHistory) (mesh : Dataset) (config : Config) :
    graph.answer ⟨first, mesh, config⟩ = graph.answer ⟨second, mesh, config⟩ := by
  refine answer_eq_of_seesAlike fun name operation isOperation => ⟨rfl, rfl, fun recalls => ?_⟩
  obtain ⟨node, found, rfl⟩ := exists_of_operation? isOperation
  rw [recallsNothing node (Table.mem_values_iff.mpr ⟨name, found⟩)] at recalls
  cases recalls

theorem History.get?_foldl_declare_of_not_mem {τ ν : Type} (history : History τ ν)
    {mentioned : List String} {name : String} (notMentioned : name ∉ mentioned) :
    (mentioned.foldl declare history).timelines.get? name = history.timelines.get? name := by
  induction mentioned generalizing history with
  | nil =>
      rfl
  | cons first rest inductionHypothesis =>
      obtain ⟨different, notInRest⟩ := List.ne_and_not_mem_of_not_mem_cons notMentioned
      rw [List.foldl_cons, inductionHypothesis _ notInRest, declare]
      split
      · rfl
      · exact Table.get?_insert_of_ne different _ _

namespace Session

open Timeline

/-- An expression has a value and a timeline behind the dataset, so it can be recorded. -/
structure Recordable (config : Config) (mesh : Dataset) (history : ValueHistory) (name : String)
    (graph : Graph) (value : Value) : Prop where
  answered : graph.answer ⟨history, mesh, config⟩ = .ok value
  newer : Newer (history.timelineOf name).entries mesh.cycle

/-- The timeline of a name with one more entry. -/
def extended (history : ValueHistory) (name : String) (entry : ValueEntry) : ValueTimeline :=
  ⟨makeRoom history.cap (history.timelineOf name).entries ++ [entry]⟩

variable {config : Config} {mesh : Dataset} {before after : ValueHistory}
  {expressions : List (String × Graph)} {values : List (String × Value)}

/-- Recording touches no timeline of another name. -/
theorem Recording.get?_of_not_mem
    (recording : Recording config mesh before expressions values after) {name : String}
    (notMember : name ∉ Entries.keys expressions) :
    after.timelines.get? name = before.timelines.get? name := by
  induction recording with
  | nil history =>
      rfl
  | cons answered appended others inductionHypothesis =>
      obtain ⟨different, notInRest⟩ := List.ne_and_not_mem_of_not_mem_cons notMember
      rw [inductionHypothesis notInRest, (History.append_eq_ok_iff.mp appended).2]
      exact Table.get?_insert_of_ne different _ _

/-- Each of the expressions that are recorded could have been recorded at first, with its value, and
its timeline has gained that. -/
theorem Recording.recordable
    (recording : Recording config mesh before expressions values after)
    (distinct : (Entries.keys expressions).Nodup) {name : String} {graph : Graph}
    (member : (name, graph) ∈ expressions) (recallsNothing : graph.RecallsNothing) :
    ∃ value, (name, value) ∈ values ∧ Recordable config mesh before name graph value ∧
      after.timelines.get? name = some (extended before name (entryOf mesh value)) := by
  induction recording with
  | nil history =>
      cases member
  | @cons history middle later first firstGraph value rest values answered appended others
      inductionHypothesis =>
      obtain ⟨notInRest, restDistinct⟩ := List.nodup_cons.mp distinct
      rcases List.mem_cons.mp member with same | inRest
      · cases same
        refine ⟨value, List.mem_cons_self .., ⟨answered, History.newer_of_append appended⟩, ?_⟩
        rw [others.get?_of_not_mem notInRest, (History.append_eq_ok_iff.mp appended).2]
        exact Table.get?_insert_self _ _ _
      · obtain ⟨own, listed, recordable, gained⟩ := inductionHypothesis restDistinct inRest
        have different : name ≠ first := fun same =>
          notInRest (same ▸ Entries.mem_keys_of_mem inRest)
        have untouched := History.timelineOf_append_of_ne appended different
        refine ⟨own, List.mem_cons_of_mem _ listed, ⟨?_, ?_⟩, ?_⟩
        · rw [recallsNothing.answer_eq history middle]
          exact recordable.answered
        · rw [← untouched]
          exact recordable.newer
        · rw [gained, extended, extended, untouched, History.cap_append appended]

/-! ## Cycles -/

section Cycle

variable {session : Session} {expressions : Expressions}
  (recallsNothing : ∀ graph ∈ expressions.values, graph.RecallsNothing)

include recallsNothing

/-- Each expression of a cycle that succeeds is recorded with a value that it had before the cycle,
and no other timeline is touched. -/
theorem recordable_of_runCycle {results : List (String × Value)}
    (succeeds : (session.runCycle mesh expressions).2 = .ok results) :
    Entries.keys results = expressions.keys ∧
      (∀ name graph, (name, graph) ∈ expressions.entries → ∃ value, (name, value) ∈ results ∧
        Recordable session.config mesh session.history name graph value ∧
        (session.runCycle mesh expressions).1.history.timelines.get? name =
          some (extended session.history name (entryOf mesh value))) ∧
      ∀ name, name ∉ expressions.keys →
        (session.runCycle mesh expressions).1.history.timelines.get? name =
          session.history.timelines.get? name := by
  obtain ⟨front, back, values, split, recording, _, ending⟩ :=
    runCycle_recording session mesh expressions
  rcases ending with ⟨rfl, result⟩ | ⟨_, _, _, _, _, _, result⟩
  · rw [succeeds] at result
    cases result
    rw [List.append_nil] at split
    subst split
    refine ⟨recording.keys_eq, ?_, ?_⟩
    · intro name graph member
      have graphRecallsNothing := recallsNothing graph (List.mem_map_of_mem member)
      obtain ⟨value, listed, recordable, gained⟩ :=
        recording.recordable expressions.distinct member graphRecallsNothing
      refine ⟨value, listed, ⟨?_, ?_⟩, ?_⟩
      · rw [graphRecallsNothing.answer_eq]
        exact recordable.answered
      · simpa only [History.timelineOf_foldl_declare] using recordable.newer
      · simpa only [extended, History.timelineOf_foldl_declare, History.cap_foldl_declare]
          using gained
    · intro name notMember
      rw [recording.get?_of_not_mem notMember]
      exact History.get?_foldl_declare_of_not_mem _ notMember
  · rw [succeeds] at result
    cases result

/-- The results of a cycle that succeeds are the values that could be recorded before it. -/
theorem mem_results_iff {results : List (String × Value)}
    (succeeds : (session.runCycle mesh expressions).2 = .ok results) {name : String}
    {value : Value} :
    (name, value) ∈ results ↔ ∃ graph, (name, graph) ∈ expressions.entries ∧
      Recordable session.config mesh session.history name graph value := by
  obtain ⟨keys, recorded, _⟩ := recordable_of_runCycle recallsNothing succeeds
  constructor
  · intro member
    have inKeys : name ∈ expressions.keys := keys ▸ Entries.mem_keys_of_mem member
    obtain ⟨graph, found⟩ := Table.mem_keys_iff_exists.mp inKeys
    have isExpression := Table.get?_eq_some_iff.mp found
    obtain ⟨own, listed, recordable, _⟩ := recorded name graph isExpression
    have distinct : (Entries.keys results).Nodup := keys ▸ expressions.distinct
    have same : some value = some own :=
      (Entries.get?_eq_some_of_mem distinct member).symm.trans
        (Entries.get?_eq_some_of_mem distinct listed)
    cases same
    exact ⟨graph, isExpression, recordable⟩
  · rintro ⟨graph, isExpression, recordable⟩
    obtain ⟨own, listed, ownRecordable, _⟩ := recorded name graph isExpression
    have same := recordable.answered.symm.trans ownRecordable.answered
    cases same
    exact listed

/-- A cycle succeeds exactly if each of its expressions could be recorded before it. -/
theorem runCycle_succeeds_iff :
    (∃ results, (session.runCycle mesh expressions).2 = .ok results) ↔
      ∀ name graph, (name, graph) ∈ expressions.entries →
        ∃ value, Recordable session.config mesh session.history name graph value := by
  constructor
  · rintro ⟨results, succeeds⟩ name graph member
    obtain ⟨value, _, recordable, _⟩ :=
      (recordable_of_runCycle recallsNothing succeeds).2.1 name graph member
    exact ⟨value, recordable⟩
  · intro recordable
    obtain ⟨front, back, values, split, recording, _, ending⟩ :=
      runCycle_recording session mesh expressions
    rcases ending with ⟨_, result⟩ | ⟨name, graph, rest, fault, rfl, stops, _⟩
    · exact ⟨values, result⟩
    · -- The expression that stops the cycle is not among those before it, so it is where it was.
      have member : (name, graph) ∈ expressions.entries := by
        rw [split]
        exact List.mem_append_right front (List.mem_cons_self ..)
      have notInFront : name ∉ Entries.keys front := by
        have distinct := expressions.distinct
        rw [split, Entries.keys_append] at distinct
        intro inFront
        exact (List.nodup_append.mp distinct).2.2 name inFront name (List.mem_cons_self ..) rfl
      have untouched : (session.runCycle mesh expressions).1.history.timelineOf name =
          session.history.timelineOf name := by
        rw [History.timelineOf, recording.get?_of_not_mem notInFront, ← History.timelineOf,
          History.timelineOf_foldl_declare]
      obtain ⟨value, answered, newer⟩ := recordable name graph member
      have stillAnswered : graph.answer ⟨(session.runCycle mesh expressions).1.history, mesh,
          session.config⟩ = .ok value := by
        rw [(recallsNothing graph (List.mem_map_of_mem member)).answer_eq _ session.history]
        exact answered
      have stillNewer :
          Newer ((session.runCycle mesh expressions).1.history.timelineOf name).entries
            (entryOf mesh value).cycle := by
        rw [untouched]
        exact newer
      have accepted := History.append_eq_ok_iff.mpr ⟨stillNewer, rfl⟩
      exact absurd stops (not_stops stillAnswered accepted fault)

end Cycle

/-- The order of expressions that recall nothing does not matter.  A cycle of them succeeds in one
order exactly if it does in another, and if it succeeds every name has the same value and, recorded
now or not, the same timeline. -/
theorem runCycle_in_any_order (session : Session) (mesh : Dataset) {first second : Expressions}
    (reordered : first.entries.Perm second.entries)
    (recallsNothing : ∀ graph ∈ first.values, graph.RecallsNothing) :
    ((∃ results, (session.runCycle mesh first).2 = .ok results) ↔
      ∃ results, (session.runCycle mesh second).2 = .ok results) ∧
    ∀ results others,
      (session.runCycle mesh first).2 = .ok results →
      (session.runCycle mesh second).2 = .ok others →
        Entries.keys results = first.keys ∧ Entries.keys others = second.keys ∧
          results.Perm others ∧
          ∀ name, (session.runCycle mesh first).1.history.timelines.get? name =
            (session.runCycle mesh second).1.history.timelines.get? name := by
  have secondRecallsNothing : ∀ graph ∈ second.values, graph.RecallsNothing := fun graph member =>
    recallsNothing graph ((reordered.map Prod.snd).mem_iff.mpr member)
  refine ⟨?_, ?_⟩
  · rw [runCycle_succeeds_iff recallsNothing, runCycle_succeeds_iff secondRecallsNothing]
    simp only [reordered.mem_iff]
  · intro results others firstSucceeds secondSucceeds
    obtain ⟨firstKeys, firstRecorded, firstOthers⟩ :=
      recordable_of_runCycle recallsNothing firstSucceeds
    obtain ⟨secondKeys, secondRecorded, secondOthers⟩ :=
      recordable_of_runCycle secondRecallsNothing secondSucceeds
    have sameKeys : first.keys.Perm second.keys := reordered.map Prod.fst
    refine ⟨firstKeys, secondKeys, ?_, ?_⟩
    · have firstDistinct : (Entries.keys results).Nodup := firstKeys ▸ first.distinct
      have secondDistinct : (Entries.keys others).Nodup := secondKeys ▸ second.distinct
      refine (List.perm_ext_iff_of_nodup (List.Nodup.of_map _ firstDistinct)
        (List.Nodup.of_map _ secondDistinct)).mpr ?_
      rintro ⟨name, value⟩
      rw [mem_results_iff recallsNothing firstSucceeds,
        mem_results_iff secondRecallsNothing secondSucceeds]
      simp only [reordered.mem_iff]
    · intro name
      by_cases member : name ∈ first.keys
      · -- Both cycles record the one value that the expression had before them.
        obtain ⟨graph, found⟩ := Table.mem_keys_iff_exists.mp member
        have isExpression := Table.get?_eq_some_iff.mp found
        obtain ⟨value, _, recordable, gained⟩ := firstRecorded name graph isExpression
        obtain ⟨other, _, otherRecordable, otherGained⟩ :=
          secondRecorded name graph (reordered.mem_iff.mp isExpression)
        have same := recordable.answered.symm.trans otherRecordable.answered
        cases same
        exact gained.trans otherGained.symm
      · rw [firstOthers name member,
          secondOthers name fun inSecond => member (sameKeys.mem_iff.mpr inSecond)]

/-- The cycle number of the dataset. -/
def cycleNumber : Graph :=
  ⟨"now", Table.ofList [("cycle", ⟨.cycle, Table.empty⟩)], some "cycle"⟩

def oneThenNow : Expressions :=
  Table.ofList (constantOne.entries ++ [("now", cycleNumber)])

def nowThenOne : Expressions :=
  Table.ofList (("now", cycleNumber) :: constantOne.entries)

theorem nowThenOne_records_what_oneThenNow_does :
    oneThenNow.entries.Perm nowThenOne.entries ∧
      (∀ graph ∈ oneThenNow.values, graph.RecallsNothing) ∧
      (keepsTwo.runCycle (bareMesh 3) oneThenNow).2 = .ok [("one", .int 1), ("now", .int 3)] ∧
      (keepsTwo.runCycle (bareMesh 3) nowThenOne).2 = .ok [("now", .int 3), ("one", .int 1)] ∧
      ∀ name, (keepsTwo.runCycle (bareMesh 3) oneThenNow).1.history.timelines.get? name =
        (keepsTwo.runCycle (bareMesh 3) nowThenOne).1.history.timelines.get? name := by
  have reordered : oneThenNow.entries.Perm nowThenOne.entries := List.Perm.swap ..
  have recallsNothing : ∀ graph ∈ oneThenNow.values, graph.RecallsNothing := by
    decide
  have firstSucceeds : (keepsTwo.runCycle (bareMesh 3) oneThenNow).2 =
      .ok [("one", .int 1), ("now", .int 3)] := by
    cbv
  have secondSucceeds : (keepsTwo.runCycle (bareMesh 3) nowThenOne).2 =
      .ok [("now", .int 3), ("one", .int 1)] := by
    cbv
  exact ⟨reordered, recallsNothing, firstSucceeds, secondSucceeds,
    ((runCycle_in_any_order keepsTwo (bareMesh 3) reordered recallsNothing).2 _ _
      firstSucceeds secondSucceeds).2.2.2⟩

end Session

end InSitu
