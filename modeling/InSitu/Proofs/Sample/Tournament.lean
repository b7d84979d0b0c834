import Mathlib
import InSitu.Proofs.Sample.Rounds

/-!
# Tournaments with blanks

A comparison may be unable to order some samples and call them equal to all others.  Such a blank
does not lose against the later sample that it meets, and so it takes the place of everything that
the later sample stands for.  After some rounds an entry stands for a block of the list, and it is
blank exactly if the first sample of the block is.  The champion is therefore the best of the
samples whose blocks, of all sizes, begin with a sample that is not blank.
-/

namespace InSitu

variable {α : Type} {compare : α → α → Ordering} {blank : α → Prop} {samples : List α}

/-- A comparison that orders all samples but the blank ones, which are equal to all. -/
structure OrdersAllBut (compare : α → α → Ordering) (blank : α → Prop) : Prop where
  swap : ∀ first second, compare second first = (compare first second).swap
  of_blank : ∀ {first second}, blank first ∨ blank second → compare first second = .eq
  trans : ∀ {first second third}, ¬ blank first → ¬ blank second → ¬ blank third →
    compare first second ≠ .gt → compare second third ≠ .gt → compare first third ≠ .gt

theorem OrdersAllBut.lt_of_lt (orders : OrdersAllBut compare blank) {first second third : α}
    (firstKnown : ¬ blank first) (secondKnown : ¬ blank second) (thirdKnown : ¬ blank third)
    (better : compare first second = .lt) (atLeast : compare second third ≠ .gt) :
    compare first third = .lt := by
  by_contra notBetter
  have back : compare third first ≠ .gt := by
    rw [orders.swap]
    simpa using notBetter
  have closes := orders.trans secondKnown thirdKnown firstKnown atLeast back
  rw [orders.swap, better] at closes
  exact closes rfl

/-- The first place of the block of `2 ^ round` places that a place belongs to. -/
def blockStart (round place : Nat) : Nat := place / 2 ^ round * 2 ^ round

def BlankAt (blank : α → Prop) (samples : List α) (place : Nat) : Prop :=
  ∃ sample, samples[place]? = some sample ∧ blank sample

/-- None of the blocks of a place up to a size begins with a blank. -/
def CountsUpTo (blank : α → Prop) (samples : List α) (round place : Nat) : Prop :=
  ∀ earlier ≤ round, ¬ BlankAt blank samples (blockStart earlier place)

/-- What the entry for a block is after some rounds. -/
structure StandsFor (compare : α → α → Ordering) (blank : α → Prop) (samples : List α)
    (round block : Nat) (entry : Indexed α) : Prop where
  sample : samples[entry.index]? = some entry.value
  inside : entry.index / 2 ^ round = block
  of_blank : BlankAt blank samples (block * 2 ^ round) → entry.index = block * 2 ^ round
  counts : ¬ BlankAt blank samples (block * 2 ^ round) →
    CountsUpTo blank samples round entry.index
  best : ∀ place sample, samples[place]? = some sample → place / 2 ^ round = block →
    CountsUpTo blank samples round place →
    compare entry.value sample ≠ .gt ∧ (place < entry.index → compare entry.value sample = .lt)

theorem blockStart_zero (place : Nat) : blockStart 0 place = place := by
  rw [blockStart, pow_zero, Nat.div_one, Nat.mul_one]

theorem blockStart_of_div {round place block : Nat} (inside : place / 2 ^ round = block) :
    blockStart round place = block * 2 ^ round := by
  rw [blockStart, inside]

theorem CountsUpTo.of_le {fewer more place : Nat} (counts : CountsUpTo blank samples more place)
    (atMost : fewer ≤ more) : CountsUpTo blank samples fewer place :=
  fun earlier before => counts earlier (before.trans atMost)

/-- The smallest block of a place is the place itself. -/
theorem CountsUpTo.not_blank {round place : Nat} {sample : α}
    (counts : CountsUpTo blank samples round place) (isSample : samples[place]? = some sample) :
    ¬ blank sample := by
  intro isBlank
  have itself := counts 0 (Nat.zero_le round)
  rw [blockStart_zero] at itself
  exact itself ⟨sample, isSample, isBlank⟩

theorem countsUpTo_succ {round place : Nat} (counts : CountsUpTo blank samples round place)
    (begins : ¬ BlankAt blank samples (blockStart (round + 1) place)) :
    CountsUpTo blank samples (round + 1) place := by
  intro earlier before
  rcases before.lt_or_eq with within | rfl
  · exact counts earlier (Nat.le_of_lt_succ within)
  · exact begins

theorem div_two_pow_succ (place round : Nat) :
    place / 2 ^ (round + 1) = place / 2 ^ round / 2 := by
  rw [pow_succ, Nat.div_div_eq_div_mul]

section Entries

variable {round block : Nat} {entry first second : Indexed α}

theorem StandsFor.blank_iff (stands : StandsFor compare blank samples round block entry) :
    blank entry.value ↔ BlankAt blank samples (block * 2 ^ round) := by
  constructor
  · intro isBlank
    by_contra begins
    exact (stands.counts begins).not_blank stands.sample isBlank
  · intro begins
    obtain ⟨sample, isSample, isBlank⟩ := begins
    rw [← stands.of_blank ⟨sample, isSample, isBlank⟩, stands.sample] at isSample
    cases isSample
    exact isBlank

theorem standsFor_indexed {place : Nat} {value : α} (isSample : samples[place]? = some value)
    (orders : OrdersAllBut compare blank) :
    StandsFor compare blank samples 0 place ⟨place, value⟩ := by
  constructor
  · exact isSample
  · rw [pow_zero, Nat.div_one]
  · rw [pow_zero, Nat.mul_one]
    exact fun _ => rfl
  · intro begins earlier before
    rwa [Nat.le_zero.mp before, blockStart_zero, ← Nat.mul_one place, ← pow_zero 2]
  · intro other sample isOther same _
    rw [pow_zero, Nat.div_one] at same
    subst same
    rw [isSample] at isOther
    cases isOther
    refine ⟨fun above => ?_, fun before => absurd before (lt_irrefl _)⟩
    have swapped := orders.swap value value
    rw [above] at swapped
    cases swapped

theorem blockStart_succ (round block : Nat) : block * 2 ^ (round + 1) = 2 * block * 2 ^ round := by
  ring

theorem div_two_pow_cases {round block place : Nat} (inside : place / 2 ^ (round + 1) = block) :
    place / 2 ^ round = 2 * block ∨ place / 2 ^ round = 2 * block + 1 := by
  rw [div_two_pow_succ] at inside
  omega

theorem lt_of_div_lt {round earlier later : Nat}
    (before : earlier / 2 ^ round < later / 2 ^ round) : earlier < later := by
  by_contra after
  exact before.not_ge (Nat.div_le_div_right (not_lt.mp after))

/-- The entry of a block stays unless it loses against the samples of the block behind. -/
theorem StandsFor.stays (stands : StandsFor compare blank samples round (2 * block) entry)
    (undefeated : ∀ place sample, samples[place]? = some sample →
      place / 2 ^ round = 2 * block + 1 → CountsUpTo blank samples (round + 1) place →
      compare entry.value sample ≠ .gt) :
    StandsFor compare blank samples (round + 1) block entry := by
  have inside : entry.index / 2 ^ (round + 1) = block := by
    rw [div_two_pow_succ, stands.inside]
    omega
  constructor
  · exact stands.sample
  · exact inside
  · rw [blockStart_succ]
    exact stands.of_blank
  · intro begins
    refine countsUpTo_succ (stands.counts (by rwa [← blockStart_succ])) ?_
    rwa [blockStart_of_div inside]
  · intro place sample isSample inBlock counts
    rcases div_two_pow_cases inBlock with inFirst | inSecond
    · exact stands.best place sample isSample inFirst (counts.of_le (Nat.le_succ round))
    · refine ⟨undefeated place sample isSample inSecond counts, fun before => ?_⟩
      have behind : entry.index / 2 ^ round < place / 2 ^ round := by
        rw [stands.inside, inSecond]
        exact Nat.lt_succ_self _
      exact absurd before (lt_of_div_lt behind).not_gt

/-- A block without a neighbour goes on as it is. -/
theorem StandsFor.alone (stands : StandsFor compare blank samples round (2 * block) entry)
    (isLast : samples.length ≤ (2 * block + 1) * 2 ^ round) :
    StandsFor compare blank samples (round + 1) block entry := by
  refine stands.stays fun place sample isSample inSecond _ => ?_
  have known := (List.getElem?_eq_some_iff.mp isSample).1
  have below : place / 2 ^ round < 2 * block + 1 :=
    (Nat.div_lt_iff_lt_mul (by positivity)).mpr (known.trans_le isLast)
  omega

theorem StandsFor.first_stays (orders : OrdersAllBut compare blank)
    (firstStands : StandsFor compare blank samples round (2 * block) first)
    (secondStands : StandsFor compare blank samples round (2 * block + 1) second)
    (wins : compare first.value second.value ≠ .gt) :
    StandsFor compare blank samples (round + 1) block first := by
  refine firstStands.stays fun place sample isSample inSecond counts => ?_
  have inBlock : place / 2 ^ (round + 1) = block := by
    rw [div_two_pow_succ, inSecond]
    omega
  have sampleKnown := counts.not_blank isSample
  have firstKnown : ¬ blank first.value := by
    have begins := counts (round + 1) le_rfl
    rwa [blockStart_of_div inBlock, blockStart_succ, ← firstStands.blank_iff] at begins
  have secondKnown : ¬ blank second.value := by
    have begins := counts round (Nat.le_succ round)
    rwa [blockStart_of_div inSecond, ← secondStands.blank_iff] at begins
  have atLeast := (secondStands.best place sample isSample inSecond
    (counts.of_le (Nat.le_succ round))).1
  exact orders.trans firstKnown secondKnown sampleKnown wins atLeast

theorem StandsFor.second_wins (orders : OrdersAllBut compare blank)
    (firstStands : StandsFor compare blank samples round (2 * block) first)
    (secondStands : StandsFor compare blank samples round (2 * block + 1) second)
    (loses : compare first.value second.value = .gt) :
    StandsFor compare blank samples (round + 1) block second := by
  have known : ¬ (blank first.value ∨ blank second.value) := fun isBlank => by
    rw [orders.of_blank isBlank] at loses
    cases loses
  rw [not_or] at known
  have begins : ¬ BlankAt blank samples (block * 2 ^ (round + 1)) := by
    rw [blockStart_succ, ← firstStands.blank_iff]
    exact known.1
  have inside : second.index / 2 ^ (round + 1) = block := by
    rw [div_two_pow_succ, secondStands.inside]
    omega
  constructor
  · exact secondStands.sample
  · exact inside
  · exact fun isBlank => absurd isBlank begins
  · intro _
    refine countsUpTo_succ (secondStands.counts ?_) ?_
    · rw [← secondStands.blank_iff]
      exact known.2
    · rwa [blockStart_of_div inside]
  · intro place sample isSample inBlock counts
    have countsBefore := counts.of_le (Nat.le_succ round)
    rcases div_two_pow_cases inBlock with inFirst | inSecond
    · have sampleKnown := counts.not_blank isSample
      have better : compare second.value first.value = .lt := by
        rw [orders.swap, loses]
        rfl
      have best := orders.lt_of_lt known.2 known.1 sampleKnown better
        (firstStands.best place sample isSample inFirst countsBefore).1
      rw [best]
      exact ⟨nofun, fun _ => rfl⟩
    · exact secondStands.best place sample isSample inSecond countsBefore

/-- The winner of two neighbouring blocks stands for both. -/
theorem StandsFor.winner (orders : OrdersAllBut compare blank)
    (firstStands : StandsFor compare blank samples round (2 * block) first)
    (secondStands : StandsFor compare blank samples round (2 * block + 1) second) :
    StandsFor compare blank samples (round + 1) block (winner compare first second) := by
  have before : first.index < second.index := by
    have behind : first.index / 2 ^ round < second.index / 2 ^ round := by
      rw [firstStands.inside, secondStands.inside]
      exact Nat.lt_succ_self _
    exact lt_of_div_lt behind
  cases compared : compare first.value second.value with
  | lt =>
      have wins := firstStands.first_stays orders secondStands (by simp [compared])
      simpa only [InSitu.winner, compared] using wins
  | eq =>
      have wins := firstStands.first_stays orders secondStands (by simp [compared])
      simpa only [InSitu.winner, compared, if_pos before.le] using wins
  | gt =>
      have wins := firstStands.second_wins orders secondStands compared
      simpa only [InSitu.winner, compared] using wins

end Entries

/-- What the entries of a round are: one for each block of the list. -/
structure StandFor (compare : α → α → Ordering) (blank : α → Prop) (samples : List α)
    (round : Nat) (entries : List (Indexed α)) : Prop where
  covers : samples.length ≤ entries.length * 2 ^ round
  stands : ∀ block entry, entries[block]? = some entry →
    StandsFor compare blank samples round block entry

theorem getElem?_indexed (samples : List α) (place : Nat) :
    (indexed samples)[place]? = samples[place]?.map fun value => ⟨place, value⟩ := by
  simp only [indexed, List.getElem?_map, List.getElem?_zipIdx, Option.map_map, Nat.zero_add]
  rfl

theorem indexed_eq_nil_iff : indexed samples = [] ↔ samples = [] := by
  simp [indexed]

theorem standFor_indexed (orders : OrdersAllBut compare blank) (samples : List α) :
    StandFor compare blank samples 0 (indexed samples) := by
  constructor
  · simp [indexed]
  · intro place entry isEntry
    rw [getElem?_indexed] at isEntry
    obtain ⟨value, isSample, rfl⟩ := Option.map_eq_some_iff.mp isEntry
    exact standsFor_indexed isSample orders

theorem StandFor.next (orders : OrdersAllBut compare blank) {round : Nat}
    {entries : List (Indexed α)} (standFor : StandFor compare blank samples round entries) :
    StandFor compare blank samples (round + 1) (pairUp (winner compare) entries) := by
  constructor
  · have halves : entries.length ≤ (entries.length + 1) / 2 * 2 := by
      omega
    rw [length_pairUp, pow_succ, Nat.mul_comm (2 ^ round), ← Nat.mul_assoc]
    exact standFor.covers.trans (Nat.mul_le_mul_right _ halves)
  · intro block entry isEntry
    rw [getElem?_pairUp] at isEntry
    cases isFirst : entries[2 * block]? with
    | none =>
        have short := List.getElem?_eq_none_iff.mp isFirst
        rw [isFirst, List.getElem?_eq_none (by omega)] at isEntry
        cases isEntry
    | some first =>
        have firstStands := standFor.stands _ first isFirst
        cases isSecond : entries[2 * block + 1]? with
        | none =>
            rw [isFirst, isSecond] at isEntry
            cases isEntry
            refine firstStands.alone (standFor.covers.trans ?_)
            exact Nat.mul_le_mul_right _ (List.getElem?_eq_none_iff.mp isSecond)
        | some second =>
            rw [isFirst, isSecond] at isEntry
            cases isEntry
            exact firstStands.winner orders (standFor.stands _ second isSecond)

/-! ## The champion -/

/-- No block of a place, however large, begins with a blank. -/
def Counts (blank : α → Prop) (samples : List α) (place : Nat) : Prop :=
  ∀ round, ¬ BlankAt blank samples (blockStart round place)

/-- The sample that is left: the first one if it is blank, or else the first of the best of those
that count. -/
structure IsChampion (compare : α → α → Ordering) (blank : α → Prop) (samples : List α)
    (champion : Indexed α) : Prop where
  sample : samples[champion.index]? = some champion.value
  of_blank : BlankAt blank samples 0 → champion.index = 0
  counts : ¬ BlankAt blank samples 0 → Counts blank samples champion.index
  best : ∀ place sample, samples[place]? = some sample → Counts blank samples place →
    compare champion.value sample ≠ .gt ∧
      (place < champion.index → compare champion.value sample = .lt)

theorem counts_of_countsUpTo {round place : Nat} (within : place < 2 ^ round)
    (counts : CountsUpTo blank samples round place) : Counts blank samples place := by
  intro later
  by_cases before : later ≤ round
  · exact counts later before
  · have larger : place < 2 ^ later :=
      within.trans_le (Nat.pow_le_pow_right (by decide) (not_le.mp before).le)
    have whole := counts round le_rfl
    rw [blockStart, Nat.div_eq_of_lt within] at whole
    rwa [blockStart, Nat.div_eq_of_lt larger, Nat.zero_mul, ← Nat.zero_mul (2 ^ round)]

theorem exists_champion (orders : OrdersAllBut compare blank) (nonempty : samples ≠ []) :
    ∃ champion, champion? compare samples = some champion ∧
      IsChampion compare blank samples champion := by
  obtain ⟨champion, rounds, isLast, covers, stands⟩ :=
    exists_reduceInRounds? (StandFor compare blank samples) 0
      (indexed_eq_nil_iff.not.mpr nonempty) (standFor_indexed orders samples) fun _ _ _ standFor => standFor.next orders
  have within {place : Nat} {sample : α} (isSample : samples[place]? = some sample) :
      place < 2 ^ rounds := by
    have known := (List.getElem?_eq_some_iff.mp isSample).1
    simpa using known.trans_le covers
  have stands := stands 0 champion rfl
  refine ⟨champion, isLast, stands.sample, ?_, ?_, ?_⟩
  · intro isBlank
    simpa using stands.of_blank (by simpa using isBlank)
  · intro begins
    exact counts_of_countsUpTo (within stands.sample) (stands.counts (by simpa using begins))
  · intro place sample isSample counts
    exact stands.best place sample isSample (Nat.div_eq_of_lt (within isSample))
      fun earlier _ => counts earlier

end InSitu
