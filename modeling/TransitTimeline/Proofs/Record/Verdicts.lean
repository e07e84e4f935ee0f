import TransitTimeline.Proofs.Record.Isolation

/-! The rows that come in, and the published and withheld ones they are parted into. Where a journey ends, the rows
before and behind it are judged apart. -/
namespace TransitTimeline.Validation

inductive Parted {α : Type} : List α → List α → List α → Prop
  | nil : Parted [] [] []
  | left {r rows left right} (rest : Parted rows left right) : Parted (r :: rows) (r :: left) right
  | right {r rows left right} (rest : Parted rows left right) : Parted (r :: rows) left (r :: right)

instance : Append Outcome := ⟨fun a b => ⟨a.valid ++ b.valid, a.rejected ++ b.rejected⟩⟩

theorem Outcome.append (a b : Outcome) : a ++ b = ⟨a.valid ++ b.valid, a.rejected ++ b.rejected⟩ := rfl

def Apart (xs ys : List StopRecord) : Prop := ∀ a ∈ xs.getLast?, ∀ b ∈ ys.head?, a.journey ≠ b.journey

structure Between (before partition after : List StopRecord) : Prop where
  uniform : ∀ a ∈ partition, ∀ b ∈ partition, a.journey = b.journey
  begins : Apart before partition
  ends : Apart partition after

/- What a partition as a whole is withheld for stands against its rows that break no rule of their own. -/
def withheld (partition : List StopRecord) (rule : Rule) : List Rejected :=
  (own partition).map fun v => ⟨v.rule.getD rule, v.record⟩

/- No row is lost, and what is published of a journey has to do with its own rows alone. -/
structure Validated (rows : List StopRecord) : Prop where
  once : Parted rows (run rows).valid ((run rows).rejected.map (·.record))
  splits : ∀ xs ys, rows = xs ++ ys → Apart xs ys → run rows = run xs ++ run ys
  whole : ∀ before partition after rule, rows = before ++ partition ++ after → Between before partition after →
    partitionRule (survivors partition) = some rule → run rows = run before ++ ⟨[], withheld partition rule⟩ ++ run after

theorem partedVerdicts (vs : List Verdict) :
    Parted (vs.map (·.record)) (Outcome.ofVerdicts vs).valid ((Outcome.ofVerdicts vs).rejected.map (·.record)) := by
  induction vs with
  | nil => exact .nil
  | cons v rest ih =>
    obtain ⟨record, rule⟩ := v
    cases rule with
    | none => exact .left ih
    | some rule => exact .right ih

theorem verdictsRecords (rows : List StopRecord) : (verdicts rows).map (·.record) = rows := by
  rw [verdicts, List.map_flatMap, List.flatMap_congr fun block _ => judgeRecords block, List.flatMap_id']
  exact List.flatten_splitBy _ rows

theorem verdictsAppend {xs ys : List StopRecord} (apart : Apart xs ys) : verdicts (xs ++ ys) = verdicts xs ++ verdicts ys := by
  have blocks : StopRecord.partitions (xs ++ ys) = StopRecord.partitions xs ++ StopRecord.partitions ys :=
    List.splitBy_append fun a ha b hb => decide_eq_false (apart a ha b hb)
  rw [verdicts, blocks, List.flatMap_append]
  rfl

theorem ofVerdictsAppend (vs ws : List Verdict) : Outcome.ofVerdicts (vs ++ ws) = .ofVerdicts vs ++ .ofVerdicts ws := by
  simp [Outcome.ofVerdicts, Outcome.append]

theorem runAppend {xs ys : List StopRecord} (apart : Apart xs ys) : run (xs ++ ys) = run xs ++ run ys := by
  rw [runVerdicts, verdictsAppend apart, ofVerdictsAppend]
  rfl

theorem verdictsOne {partition : List StopRecord} (filled : partition ≠ [])
    (uniform : ∀ a ∈ partition, ∀ b ∈ partition, a.journey = b.journey) : verdicts partition = judge partition := by
  have block : Blocks StopRecord.journey [partition] :=
    ⟨by simpa using filled.symm, by simpa using uniform, List.pairwise_singleton _ _⟩
  have split := block.split
  rw [List.flatten_singleton] at split
  rw [verdicts, StopRecord.partitions, split, List.flatMap_singleton]

theorem ofVerdictsWithheld {partition : List StopRecord} {rule : Rule}
    (broken : partitionRule (survivors partition) = some rule) :
    Outcome.ofVerdicts (judge partition) = ⟨[], withheld partition rule⟩ := by
  have valid : (Outcome.ofVerdicts (judge partition)).valid = [] := keptNothing broken
  have rejected : (Outcome.ofVerdicts (judge partition)).rejected = withheld partition rule := by
    simp only [Outcome.ofVerdicts, judgeOwn, broken, List.filterMap_map]
    rw [withheld, ← List.filterMap_eq_map]
    refine List.filterMap_congr fun v _ => ?_
    cases h : v.rule <;> simp [h]
  rw [← valid, ← rejected]

theorem runWithheld {before partition after : List StopRecord} {rule : Rule} (between : Between before partition after)
    (broken : partitionRule (survivors partition) = some rule) :
    run (before ++ partition ++ after) = run before ++ ⟨[], withheld partition rule⟩ ++ run after := by
  have filled : partition ≠ [] := by
    rintro rfl
    cases broken
  have own : run partition = ⟨[], withheld partition rule⟩ := by
    rw [runVerdicts, verdictsOne filled between.uniform, ofVerdictsWithheld broken]
  have behind : Apart (before ++ partition) after := by
    intro a ha b hb
    rw [List.getLast?_append_of_ne_nil _ filled] at ha
    exact between.ends a ha b hb
  rw [runAppend behind, runAppend between.begins, own]

theorem rowsValidated (rows : List StopRecord) : Validated rows where
  once := by
    have parted := partedVerdicts (verdicts rows)
    rwa [verdictsRecords] at parted
  splits := by
    rintro xs ys rfl apart
    exact runAppend apart
  whole := by
    rintro before partition after rule rfl between broken
    exact runWithheld between broken

end TransitTimeline.Validation
