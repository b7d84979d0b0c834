import InSitu.Proofs.History.Scanning
import InSitu.Proofs.History.Timeline

/-!
# Windows in cycles

Cycles rise, and so the entries of a window are side by side.  The scans compare
cycles as signed words, in which those from `2 ^ 63` on are negative.  The scan
for the first entry after a window passes them over, and the window takes them
in, unless another entry after the window stands in front of them.
-/

namespace InSitu.RangeSelector

variable {entries : List ValueEntry} {first last : Int64}

/-- The cycle of an entry lies in a window. -/
def InCycles (first last : Int64) (entry : ValueEntry) : Prop :=
  first.toInt ≤ entry.cycle.toNat ∧ entry.cycle.toNat ≤ last.toInt

/-- No signed word holds the cycle of an entry. -/
def BeyondWords (entry : ValueEntry) : Prop := 2 ^ 63 ≤ entry.cycle.toNat

/-- There are entries in a window, and the first one after it has a cycle that no
signed word holds. -/
def Overruns (entries : List ValueEntry) (first last : Int64) : Prop :=
  (∃ entry ∈ entries, InCycles first last entry) ∧
    (∃ entry ∈ entries, BeyondWords entry) ∧
      ∀ entry ∈ entries, last.toInt < entry.cycle.toNat → BeyondWords entry

theorem toInt_toInt64 (cycle : Cycle) :
    cycle.toInt64.toInt =
      if cycle.toNat < 2 ^ 63 then (cycle.toNat : Int) else cycle.toNat - 2 ^ 64 := by
  change cycle.toBitVec.toInt = _
  rw [BitVec.toInt_eq_toNat_cond]
  change (if 2 * cycle.toNat < 2 ^ 64 then (cycle.toNat : Int)
    else cycle.toNat - (2 ^ 64 : Nat)) = _
  split <;> split <;> omega

theorem le_toInt64_iff (natural : 0 ≤ first.toInt) (cycle : Cycle) :
    first ≤ cycle.toInt64 ↔ first.toInt ≤ cycle.toNat ∧ cycle.toNat < 2 ^ 63 := by
  have inWord := cycle.toNat_lt
  rw [Int64.le_iff_toInt_le, toInt_toInt64]
  split <;> omega

theorem lt_toInt64_iff (natural : 0 ≤ last.toInt) (cycle : Cycle) :
    last < cycle.toInt64 ↔ last.toInt < cycle.toNat ∧ cycle.toNat < 2 ^ 63 := by
  have inWord := cycle.toNat_lt
  rw [Int64.lt_iff_toInt_lt, toInt_toInt64]
  split <;> omega

theorem toInt64_le_iff (natural : 0 ≤ last.toInt) (cycle : Cycle) :
    cycle.toInt64 ≤ last ↔ cycle.toNat ≤ last.toInt ∨ 2 ^ 63 ≤ cycle.toNat := by
  have inWord := cycle.toNat_lt
  rw [Int64.le_iff_toInt_le, toInt_toInt64]
  split <;> omega

theorem cycleSpan?_within {span : Span} (found : cycleSpan? entries first last = some span) :
    span.last < entries.length := by
  obtain ⟨start, isStart, reaches⟩ := Option.bind_eq_some_iff.mp found
  obtain ⟨inside, _, _⟩ := List.findIdx?_eq_some_iff_getElem.mp isStart
  dsimp only at reaches
  split at reaches
  · cases reaches
    cases isPast : entries.findIdx? fun entry => last < entry.cycle.toInt64 with
    | none =>
        change entries.length - 1 < entries.length
        omega
    | some past =>
        obtain ⟨pastInside, _, _⟩ := List.findIdx?_eq_some_iff_getElem.mp isPast
        change past - 1 < entries.length
        omega
  · cases reaches

/-- A scan for cycles from some number on finds the place from which on they are
reached, although it passes over the cycles that no signed word holds. -/
theorem cycle_reached_iff_of_findIdx? (ascending : Timeline.Ascending entries)
    (reached : Nat → Prop) (upward : ∀ {earlier later}, earlier < later → reached earlier →
      reached later)
    {test : ValueEntry → Bool} (tests : ∀ entry, test entry = true ↔
      reached entry.cycle.toNat ∧ entry.cycle.toNat < 2 ^ 63)
    {start : Nat} (found : entries.findIdx? test = some start) :
    ∃ inside : start < entries.length, entries[start].cycle.toNat < 2 ^ 63 ∧
      ∀ position (known : position < entries.length),
        (reached entries[position].cycle.toNat ↔ start ≤ position) := by
  obtain ⟨inside, passes, reached_iff⟩ := reached_iff_of_findIdx?
    (fun entry => reached entry.cycle.toNat) found
    (ascending.imp fun order => upward order)
    (fun entry _ passes => ((tests entry).mp passes).1)
    (ascending.imp fun {earlier later} order passes isReached =>
      (tests earlier).mpr ⟨isReached, Nat.lt_trans order ((tests later).mp passes).2⟩)
  exact ⟨inside, ((tests _).mp passes).2, reached_iff⟩

theorem cycleSpan?_of_start {start : Nat} (inside : start < entries.length)
    (isStart : entries.findIdx? (fun entry => first ≤ entry.cycle.toInt64) = some start) :
    cycleSpan? entries first last =
      if entries[start].cycle.toInt64 ≤ last then
        some ⟨start, (entries.findIdx? fun entry => last < entry.cycle.toInt64).getD
          entries.length - 1⟩
      else none := by
  rw [cycleSpan?, isStart, Option.bind_some, List.getElem?_eq_getElem inside, Option.any_some]
  simp only [decide_eq_true_eq]

/-- A window that no entry ends reaches the newest one. -/
theorem addresses_of_no_stop {start : Nat} (inside : start < entries.length)
    (begun_iff : ∀ position (known : position < entries.length),
      (first.toInt ≤ entries[position].cycle.toNat ↔ start ≤ position))
    (noStop : ∀ entry ∈ entries, last.toInt < entry.cycle.toNat → BeyondWords entry) :
    Addresses (some ⟨start, entries.length - 1⟩) entries.length
      (HoldsAt entries fun entry => InCycles first last entry ∨ BeyondWords entry) := by
  have firstInWord := first.toInt_lt
  refine addresses_some (by dsimp only; omega) (by dsimp only; omega) fun position known => ?_
  have ended := noStop _ (List.getElem_mem known)
  rw [holdsAt_iff known, ← begun_iff position known]
  simp only [InCycles, BeyondWords] at ended ⊢
  omega

/-- The first entry after a window ends it. -/
theorem addresses_of_stop {start stop : Nat} (stopInside : stop < entries.length)
    (begun_iff : ∀ position (known : position < entries.length),
      (first.toInt ≤ entries[position].cycle.toNat ↔ start ≤ position))
    (ended_iff : ∀ position (known : position < entries.length),
      (last.toInt < entries[position].cycle.toNat ↔ stop ≤ position))
    (nonempty : start < stop) :
    Addresses (some ⟨start, stop - 1⟩) entries.length (HoldsAt entries (InCycles first last)) := by
  refine addresses_some (by dsimp only; omega) (by dsimp only; omega) fun position known => ?_
  have ended := ended_iff position known
  rw [holdsAt_iff known, InCycles, begun_iff position known]
  dsimp only
  omega

theorem addresses_of_missed (missed : ∀ entry ∈ entries, ¬ InCycles first last entry) :
    Addresses none entries.length (HoldsAt entries (InCycles first last)) ∧
      ¬ Overruns entries first last := by
  refine ⟨addresses_none (forall_not_holdsAt_iff.mpr missed), ?_⟩
  rintro ⟨⟨entry, member, inCycles⟩, _⟩
  exact missed entry member inCycles

/-- A window from an entry on resolves to its entries, or else it overruns and
resolves to its entries and those beyond signed words. -/
theorem addresses_of_start (ascending : Timeline.Ascending entries) (natural : 0 ≤ last.toInt)
    {start : Nat} (inside : start < entries.length)
    (begun_iff : ∀ position (known : position < entries.length),
      (first.toInt ≤ entries[position].cycle.toNat ↔ start ≤ position))
    (notEnded : entries[start].cycle.toNat ≤ last.toInt) {resolved : Option Span}
    (isResolved : resolved = some ⟨start,
      (entries.findIdx? fun entry => last < entry.cycle.toInt64).getD entries.length - 1⟩) :
    Addresses resolved entries.length (HoldsAt entries (InCycles first last)) ∧
        ¬ Overruns entries first last ∨
      Addresses resolved entries.length
          (HoldsAt entries fun entry => InCycles first last entry ∨ BeyondWords entry) ∧
        Overruns entries first last := by
  rw [isResolved]
  cases isStop : entries.findIdx? fun entry => last < entry.cycle.toInt64 with
  | some stop =>
      obtain ⟨stopInside, stopInWord, ended_iff⟩ := cycle_reached_iff_of_findIdx? ascending
        (fun cycle => last.toInt < cycle) (by intros; omega)
        (fun entry => by rw [decide_eq_true_eq, lt_toInt64_iff natural]) isStop
      have stopReached := (ended_iff stop stopInside).mpr le_rfl
      have nonempty : start < stop := by
        have before := mt (ended_iff start inside).mpr (Int.not_lt.mpr notEnded)
        omega
      refine .inl ⟨addresses_of_stop stopInside begun_iff ended_iff nonempty, ?_⟩
      rintro ⟨_, _, beyond⟩
      exact absurd (beyond _ (List.getElem_mem stopInside) stopReached)
        (Nat.not_le.mpr stopInWord)
  | none =>
      have noStop : ∀ entry ∈ entries, last.toInt < entry.cycle.toNat → BeyondWords entry := by
        intro entry member after
        have passedOver := of_decide_eq_false (List.findIdx?_eq_none_iff.mp isStop entry member)
        rw [lt_toInt64_iff natural, not_and, Nat.not_lt] at passedOver
        exact passedOver after
      have addresses := addresses_of_no_stop inside begun_iff noStop
      by_cases beyond : ∃ entry ∈ entries, BeyondWords entry
      · have startInCycles := And.intro ((begun_iff start inside).mpr le_rfl) notEnded
        exact .inr ⟨addresses, ⟨_, List.getElem_mem inside, startInCycles⟩, beyond, noStop⟩
      · refine .inl ⟨addresses.congr fun position known => ?_, fun overruns => ?_⟩
        · have within := not_exists.mp beyond entries[position]
          simp only [holdsAt_iff known, List.getElem_mem, true_and] at within ⊢
          exact or_iff_left within
        · exact beyond overruns.2.1

theorem cycleSpan?_addresses (ascending : Timeline.Ascending entries) (natural : 0 ≤ first.toInt)
    (ordered : first.toInt ≤ last.toInt) :
    Addresses (cycleSpan? entries first last) entries.length
          (HoldsAt entries (InCycles first last)) ∧
        ¬ Overruns entries first last ∨
      Addresses (cycleSpan? entries first last) entries.length
          (HoldsAt entries fun entry => InCycles first last entry ∨ BeyondWords entry) ∧
        Overruns entries first last := by
  have lastInWord := last.toInt_lt
  have lastNatural := natural.trans ordered
  cases isStart : entries.findIdx? fun entry => first ≤ entry.cycle.toInt64 with
  | none =>
      have resolved : cycleSpan? entries first last = none := by
        rw [cycleSpan?, isStart]
        rfl
      rw [resolved]
      refine .inl (addresses_of_missed fun entry member ⟨begun, notEnded⟩ => ?_)
      have passedOver := of_decide_eq_false (List.findIdx?_eq_none_iff.mp isStart entry member)
      rw [le_toInt64_iff natural] at passedOver
      omega
  | some start =>
      obtain ⟨inside, startInWord, begun_iff⟩ := cycle_reached_iff_of_findIdx? ascending
        (fun cycle => first.toInt ≤ cycle) (by intros; omega)
        (fun entry => by rw [decide_eq_true_eq, le_toInt64_iff natural]) isStart
      have resolved : cycleSpan? entries first last = _ := cycleSpan?_of_start inside isStart
      simp only [toInt64_le_iff lastNatural] at resolved
      by_cases notEnded : entries[start].cycle.toNat ≤ last.toInt
      · rw [if_pos (.inl notEnded)] at resolved
        exact addresses_of_start ascending lastNatural inside begun_iff notEnded resolved
      · rw [if_neg (by omega)] at resolved
        rw [resolved]
        refine .inl (addresses_of_missed fun entry member inCycles => ?_)
        obtain ⟨position, known, rfl⟩ := List.getElem_of_mem member
        rcases ((begun_iff position known).mp inCycles.1).eq_or_lt with rfl | later
        · exact notEnded inCycles.2
        · have order := List.pairwise_iff_getElem.mp ascending start position inside known later
          exact notEnded ((Int.ofNat_le.mpr (UInt64.lt_iff_toNat_lt.mp order).le).trans inCycles.2)

/-! ## Windows of a timeline -/

variable {timeline : ValueTimeline}

theorem resolve_absoluteCycle_eq (natural : 0 ≤ first.toInt) (ordered : first.toInt ≤ last.toInt)
    (node : String) :
    (absoluteCycle first last).resolve node timeline =
      .ok (cycleSpan? timeline.entries first last) := by
  have checked : (absoluteCycle first last).check node = .ok () :=
    check_of_ordered rfl natural ordered node
  rw [resolve, checked]
  by_cases recorded : timeline.entries.isEmpty
  · simp only [List.isEmpty_iff.mp recorded, bind, Except.bind]
    rfl
  · rw [Bool.not_eq_true] at recorded
    simp only [recorded, bind, Except.bind]
    rfl

/-- A window in cycles resolves to exactly the entries in it, unless it overruns;
then it takes in the entries whose cycles no signed word holds.  Either way it
resolves to nothing exactly if no entry is in it. -/
theorem resolve_absoluteCycle (ascending : Timeline.Ascending timeline.entries)
    (natural : 0 ≤ first.toInt) (ordered : first.toInt ≤ last.toInt) (node : String) :
    ∃ resolved, (absoluteCycle first last).resolve node timeline = .ok resolved ∧
      (Addresses resolved timeline.size (HoldsAt timeline.entries (InCycles first last)) ↔
        ¬ Overruns timeline.entries first last) ∧
      (Overruns timeline.entries first last →
        Addresses resolved timeline.size (HoldsAt timeline.entries fun entry =>
          InCycles first last entry ∨ BeyondWords entry)) ∧
      (resolved = none ↔ ∀ entry ∈ timeline.entries, ¬ InCycles first last entry) := by
  refine ⟨_, resolve_absoluteCycle_eq natural ordered node, ?_⟩
  rcases cycleSpan?_addresses ascending natural ordered with
    ⟨addresses, within⟩ | ⟨addresses, overruns⟩
  · refine ⟨iff_of_true addresses within, fun overruns => absurd overruns within, ?_⟩
    rw [addresses.none_iff, forall_not_holdsAt_iff]
  · obtain ⟨entry, member, inCycles⟩ := overruns.1
    obtain ⟨other, otherMember, beyond⟩ := overruns.2.1
    refine ⟨iff_of_false (fun exactly => ?_) (not_not_intro overruns), fun _ => addresses, ?_⟩
    · obtain ⟨position, known, rfl⟩ := List.getElem_of_mem otherMember
      have alike := addresses.selected_iff_selected exactly known
      rw [holdsAt_iff known, holdsAt_iff known] at alike
      have lastInWord := last.toInt_lt
      have notBeyond := (alike.mp (.inr beyond)).2
      rw [BeyondWords] at beyond
      omega
    · rw [addresses.none_iff, forall_not_holdsAt_iff]
      exact iff_of_false (fun none => none entry member (.inl inCycles))
        fun none => none entry member inCycles

/-- The last of three cycles is that of no signed word. -/
def longRun : ValueTimeline :=
  ⟨[⟨5, none, .double 1.0⟩, ⟨20, none, .double 2.0⟩, ⟨0x8000000000000000, none, .double 3.0⟩]⟩

theorem longRun_ascending : Timeline.Ascending longRun.entries := by
  rw [Timeline.Ascending]
  decide

theorem longRun_found_in_window :
    Timeline.Ascending longRun.entries ∧ 0 ≤ (0 : Int64).toInt ∧
      (0 : Int64).toInt ≤ (10 : Int64).toInt ∧
      ∃ resolved, (absoluteCycle 0 10).resolve "w" longRun = .ok resolved ∧
        Addresses resolved longRun.size (HoldsAt longRun.entries (InCycles 0 10)) := by
  have natural : 0 ≤ (0 : Int64).toInt := by
    decide
  have ordered : (0 : Int64).toInt ≤ (10 : Int64).toInt := by
    decide
  obtain ⟨resolved, resolves, addresses_iff, _⟩ :=
    resolve_absoluteCycle longRun_ascending natural ordered "w"
  have within : ¬ Overruns longRun.entries 0 10 := by
    rintro ⟨_, _, beyond⟩
    have second := beyond ⟨20, none, .double 2.0⟩ (by simp [longRun]) (by decide)
    rw [BeyondWords] at second
    exact absurd second (by decide)
  exact ⟨longRun_ascending, natural, ordered, resolved, resolves, addresses_iff.mpr within⟩

/-- The window ends at cycle 30 and finds cycle `2 ^ 63`. -/
theorem longRun_found_beyond :
    Timeline.Ascending longRun.entries ∧ 0 ≤ (0 : Int64).toInt ∧
      (0 : Int64).toInt ≤ (30 : Int64).toInt ∧
      (absoluteCycle 0 30).resolve "w" longRun = .ok (some ⟨0, 2⟩) ∧
      ¬ ∃ resolved, (absoluteCycle 0 30).resolve "w" longRun = .ok resolved ∧
        Addresses resolved longRun.size (HoldsAt longRun.entries (InCycles 0 30)) := by
  have natural : 0 ≤ (0 : Int64).toInt := by
    decide
  have ordered : (0 : Int64).toInt ≤ (30 : Int64).toInt := by
    decide
  have span : cycleSpan? longRun.entries 0 30 = some ⟨0, 2⟩ := by
    rfl
  have resolves : (absoluteCycle 0 30).resolve "w" longRun = .ok (some ⟨0, 2⟩) := by
    rw [resolve_absoluteCycle_eq natural ordered, span]
  refine ⟨longRun_ascending, natural, ordered, resolves, ?_⟩
  rintro ⟨resolved, resolvesAlso, addresses⟩
  rw [resolves] at resolvesAlso
  cases resolvesAlso
  obtain ⟨newest, isNewest, inCycles⟩ :=
    (addresses.selected_iff _ rfl 2 (by decide)).mp (by decide)
  cases isNewest
  exact absurd inCycles.2 (by decide)

end InSitu.RangeSelector
