import Mathlib.Data.List.Basic
import TransitTimeline.Table.Csv
import TransitTimeline.Table.Decode

/-! Records read back out of their written lines, whatever characters stand in the fields, and out of the bytes of the
lines alike. -/
namespace TransitTimeline.Csv

section Run
variable {β : Type} {mark? : β → Option Mark}

def behind (p : Position) : Position := if p = .quoted then .quoted else .plain

theorem scanUnmarked {b : β} (unmarked : mark? b = none) (p : Position) (field : List β) (fields : List (List β))
    (rest : List β) : scan mark? p field fields (b :: rest) = scan mark? (behind p) (b :: field) fields rest := by
  cases p <;> simp [scan, unmarked, behind]

theorem scanRun {run : List β} (filled : run ≠ []) (unmarked : ∀ b ∈ run, mark? b = none) (p : Position) (field : List β)
    (fields : List (List β)) (rest : List β) :
    scan mark? p field fields (run ++ rest) = scan mark? (behind p) (run.reverse ++ field) fields rest := by
  induction run generalizing p field with
  | nil => exact absurd rfl filled
  | cons b run ih =>
    obtain ⟨first, others⟩ := List.forall_mem_cons.mp unmarked
    rw [List.cons_append, scanUnmarked first]
    cases run with
    | nil => rfl
    | cons c run =>
      have again : behind (behind p) = behind p := by cases p <;> rfl
      rw [ih (by simp) others, again, List.reverse_cons (a := b), List.append_assoc]
      rfl

end Run

section Field
variable {p : Position} {field : List Char} {fields : List (List Char)} {rest : List Char}

theorem scanQuoted {c : Char} (other : c ≠ '"') (back : List Char) :
    scan charMark? .quoted back fields (c :: rest) = scan charMark? .quoted (c :: back) fields rest := by
  have inside : charMark? c ≠ some .quote := by
    intro mark
    unfold charMark? at mark
    split at mark <;> cases mark
    exact other rfl
  cases mark : charMark? c with
  | none => rw [scanUnmarked mark, behind, if_pos rfl]
  | some m =>
    cases m
    case quote => exact absurd mark inside
    all_goals simp only [scan, mark]

theorem scanDoubled (back : List Char) :
    scan charMark? .quoted back fields (doubled field ++ rest) = scan charMark? .quoted (field.reverse ++ back) fields rest := by
  induction field generalizing back with
  | nil => rfl
  | cons c field ih =>
    have shape : doubled (c :: field) ++ rest = (if c = '"' then ['"', '"'] else [c]) ++ (doubled field ++ rest) := by
      rw [doubled, List.flatMap_cons, List.append_assoc]
      rfl
    have step : scan charMark? .quoted back fields (doubled (c :: field) ++ rest) =
        scan charMark? .quoted (c :: back) fields (doubled field ++ rest) := by
      rw [shape]
      split
      · rename_i quote
        subst quote
        rfl
      · rename_i other
        exact scanQuoted other back
    rw [step, ih, List.reverse_cons, List.append_assoc]
    rfl

def Opens (p : Position) (fields : List (List Char)) : Prop := p = .fieldStart ∨ p = .recordStart ∧ fields = []

def ended (p : Position) (field : List Char) : Position :=
  if needsQuotes field then .quoteSeen else if field = [] then p else .plain

theorem scanWritten (opens : Opens p fields) :
    scan charMark? p [] fields (written field ++ rest) = scan charMark? (ended p field) field.reverse fields rest := by
  by_cases quotes : needsQuotes field
  · have opened : scan charMark? p [] fields ('"' :: (doubled field ++ ('"' :: rest))) =
        scan charMark? .quoted [] fields (doubled field ++ ('"' :: rest)) := by
      rcases opens with rfl | ⟨rfl, rfl⟩ <;> rfl
    have closed : scan charMark? .quoted (field.reverse ++ []) fields ('"' :: rest) =
        scan charMark? .quoteSeen (field.reverse ++ []) fields rest := rfl
    rw [written, if_pos quotes, ended, if_pos quotes, List.cons_append, List.cons_append, List.append_assoc,
      List.singleton_append, opened, scanDoubled, closed, List.append_nil]
  · have unmarked : ∀ c ∈ field, charMark? c = none := by simpa [needsQuotes] using quotes
    rw [written, if_neg quotes, ended, if_neg quotes]
    cases field with
    | nil => rfl
    | cons c field =>
      have plain : behind p = .plain := by rcases opens with rfl | ⟨rfl, rfl⟩ <;> rfl
      rw [scanRun (by simp) unmarked, plain, List.append_nil, if_neg (by simp)]

theorem scanComma (unquoted : p ≠ .quoted) :
    scan charMark? p field fields (',' :: rest) = scan charMark? .fieldStart [] (field.reverse :: fields) rest := by
  cases p
  case quoted => exact absurd rfl unquoted
  all_goals rfl

theorem scanLineFeed (unquoted : p ≠ .quoted) (begun : p ≠ .recordStart) :
    scan charMark? p field fields ('\n' :: rest) =
      (field.reverse :: fields).reverse :: scan charMark? .recordStart [] [] rest := by
  cases p
  case quoted => exact absurd rfl unquoted
  case recordStart => exact absurd rfl begun
  all_goals rfl

theorem endedUnquoted (opens : Opens p fields) : ended p field ≠ .quoted := by
  unfold ended
  split
  · simp
  · split
    · rcases opens with rfl | ⟨rfl, rfl⟩ <;> simp
    · simp

end Field

/- The induction is on the fields still to come; only a lone empty field at a record's start would read as no record. -/
theorem scanFields {p : Position} {before : List (List Char)} (first : List Char) (others : List (List Char)) (rest : List Char)
    (opens : Opens p before) (shown : p = .recordStart → first ≠ [] ∨ others ≠ []) :
    scan charMark? p [] before ([','].intercalate ((first :: others).map written) ++ '\n' :: rest) =
      (before.reverse ++ first :: others) :: scan charMark? .recordStart [] [] rest := by
  induction others generalizing p before first with
  | nil =>
    have begun : ended p first ≠ .recordStart := by
      unfold ended
      split
      · simp
      · split
        · rename_i empty
          intro start
          exact (shown start).elim (fun filled => filled empty) fun more => more rfl
        · simp
    rw [List.map_singleton, List.intercalate_singleton, scanWritten opens, scanLineFeed (endedUnquoted opens) begun,
      List.reverse_reverse, List.reverse_cons]
  | cons second others ih =>
    rw [List.map_cons, List.map_cons, List.intercalate_cons_cons, List.append_assoc, List.append_assoc, scanWritten opens,
      List.singleton_append, scanComma (endedUnquoted opens), List.reverse_reverse, ← List.map_cons,
      ih second (.inl rfl) (by simp), List.reverse_cons, List.append_assoc]
    rfl

def Shown (record : List String) : Prop := record ≠ [] ∧ record ≠ [""]

theorem scanLine {record : List String} (shown : Shown record) (rest : List Char) :
    scan charMark? .recordStart [] [] (line record ++ rest) =
      record.map String.toList :: scan charMark? .recordStart [] [] rest := by
  have shape : line record ++ rest = [','].intercalate ((record.map String.toList).map written) ++ '\n' :: rest := by
    rw [line, List.map_map, List.append_assoc]
    rfl
  rw [shape]
  cases record with
  | nil => exact absurd rfl shown.1
  | cons first others =>
    have visible : first.toList ≠ [] ∨ others.map String.toList ≠ [] := by
      by_contra hidden
      simp only [not_or, ne_eq, not_not, String.toList_eq_nil_iff, List.map_eq_nil_iff] at hidden
      exact shown.2 (by rw [hidden.1, hidden.2])
    exact scanFields first.toList (others.map String.toList) rest (.inr ⟨rfl, rfl⟩) fun _ => visible

theorem recordsOfLines {rows : List (List String)} (shown : ∀ record ∈ rows, Shown record) :
    records charMark? (rows.flatMap line) = rows.map (·.map String.toList) := by
  unfold records
  induction rows with
  | nil => rfl
  | cons record rows ih =>
    obtain ⟨first, others⟩ := List.forall_mem_cons.mp shown
    rw [List.flatMap_cons, scanLine first, ih others, List.map_cons]

section Encoded
variable {β : Type} {mark? : β → Option Mark} {encode : Char → List β}

structure Encodes (mark? : β → Option Mark) (encode : Char → List β) : Prop where
  marked : ∀ {c m}, charMark? c = some m → ∃ b, encode c = [b] ∧ mark? b = some m
  unmarked : ∀ {c}, charMark? c = none → encode c ≠ [] ∧ ∀ b ∈ encode c, mark? b = none

theorem scanEncoded (encodes : Encodes mark? encode) (p : Position) (field : List Char) (fields : List (List Char))
    (text : List Char) :
    scan mark? p (field.reverse.flatMap encode).reverse (fields.map (·.flatMap encode)) (text.flatMap encode) =
      (scan charMark? p field fields text).map (·.map (·.flatMap encode)) := by
  induction text generalizing p field fields with
  | nil =>
    by_cases start : p = .recordStart
    · simp [scan, start]
    · simp [scan, start, List.map_reverse]
  | cons c text ih =>
    rw [List.flatMap_cons]
    cases mark : charMark? c with
    | none =>
      obtain ⟨filled, unmarked⟩ := encodes.unmarked mark
      have longer : (encode c).reverse ++ (field.reverse.flatMap encode).reverse =
          ((c :: field).reverse.flatMap encode).reverse := by simp
      rw [scanRun filled unmarked, longer, ih, scanUnmarked mark]
    | some m =>
      obtain ⟨b, own, same⟩ := encodes.marked mark
      have kept (q : Position) : scan mark? q (b :: (field.reverse.flatMap encode).reverse) (fields.map (·.flatMap encode))
          (text.flatMap encode) = (scan charMark? q (c :: field) fields text).map (·.map (·.flatMap encode)) := by
        rw [← ih, List.reverse_cons, List.flatMap_append, List.reverse_append, List.flatMap_singleton, own]
        rfl
      have fresh (q : Position) (others : List (List Char)) : scan mark? q [] (others.map (·.flatMap encode))
          (text.flatMap encode) = (scan charMark? q [] others text).map (·.map (·.flatMap encode)) := ih q [] others
      have closed : (field.reverse.flatMap encode).reverse.reverse :: fields.map (·.flatMap encode) =
          (field.reverse :: fields).map (·.flatMap encode) := by
        rw [List.reverse_reverse, List.map_cons]
      have record : (scan charMark? .recordStart [] [] text).map (·.map (·.flatMap encode)) =
          scan mark? .recordStart [] [] (text.flatMap encode) := (fresh .recordStart []).symm
      rw [own, List.singleton_append]
      cases p <;> cases m <;>
        simp only [scan, mark, same, closed, kept, ih, fresh, record, List.map_cons, List.map_reverse]
      all_goals first | rfl | exact fresh .fieldStart (field.reverse :: fields) | exact fresh .quoted []

end Encoded

theorem byteMarkHigh {b : UInt8} (high : 128 ≤ b.toNat) : byteMark? b = none := by
  have other {n : UInt8} (low : n.toNat < 128) : b ≠ n := by
    rintro rfl
    omega
  rw [byteMark?, if_neg (other (by decide)), if_neg (other (by decide)), if_neg (other (by decide)),
    if_neg (other (by decide))]

theorem byteMarkLow {c : Char} (low : c.toNat < 128) (unmarked : charMark? c = none) :
    byteMark? (UInt8.ofNat c.toNat) = none := by
  have other {d : Char} {m : Mark} (small : d.toNat < 128) (own : charMark? d = some m) :
      UInt8.ofNat c.toNat ≠ UInt8.ofNat d.toNat := by
    intro same
    have numbers := congrArg UInt8.toNat same
    rw [UInt8.toNat_ofNat_of_lt' (by unfold UInt8.size; omega), UInt8.toNat_ofNat_of_lt' (by unfold UInt8.size; omega)] at numbers
    obtain rfl := Char.toNat_inj.mp numbers
    rw [own] at unmarked
    cases unmarked
  have comma := other (d := ',') (by decide) rfl
  have quote := other (d := '"') (by decide) rfl
  have lineFeed := other (d := '\n') (by decide) rfl
  have carriageReturn := other (d := '\r') (by decide) rfl
  rw [byteMark?]
  exact (if_neg comma).trans ((if_neg quote).trans ((if_neg lineFeed).trans (if_neg carriageReturn)))

theorem encodedHigh {c : Char} (high : 128 ≤ c.toNat) {b : UInt8} (member : b ∈ String.utf8EncodeChar c) : 128 ≤ b.toNat := by
  have above {n : Nat} (low : 128 ≤ n) (small : n < 256) : 128 ≤ (UInt8.ofNat n).toNat := by
    rwa [UInt8.toNat_ofNat_of_lt' small]
  have beyond : ¬c.val.toNat ≤ 127 := Nat.not_le.mpr high
  rw [String.utf8EncodeChar, if_neg beyond] at member
  split at member
  case' isFalse => split at member
  all_goals
    simp only [List.mem_cons, List.not_mem_nil, or_false] at member
    rcases member with rfl | rfl | rfl | rfl <;> exact above (by omega) (by omega)

theorem utf8Encodes : Encodes byteMark? String.utf8EncodeChar where
  marked := by
    intro c m mark
    unfold charMark? at mark
    split at mark <;> cases mark <;> exact ⟨_, rfl, rfl⟩
  unmarked := by
    intro c unmarked
    refine ⟨String.utf8EncodeChar_ne_nil, ?_⟩
    intro b member
    rcases Nat.lt_or_ge c.toNat 128 with low | high
    · have within : c.val.toNat ≤ 127 := Nat.le_of_lt_succ low
      rw [String.utf8EncodeChar, if_pos within] at member
      obtain rfl := List.mem_singleton.mp member
      exact byteMarkLow low unmarked
    · exact byteMarkHigh (encodedHigh high member)

theorem bytesList (bytes : ByteArray) : bytes.toList = bytes.data.toList := by
  have loop (i : Nat) (back : List UInt8) :
      ByteArray.toList.loop bytes i back = back.reverse ++ bytes.data.toList.drop i := by
    induction distance : bytes.size - i generalizing i back with
    | zero =>
      have outside : bytes.size ≤ i := Nat.le_of_sub_eq_zero distance
      have none : bytes.data.toList.drop i = [] := List.drop_eq_nil_of_le outside
      rw [ByteArray.toList.loop, if_neg (Nat.not_lt.mpr outside), none, List.append_nil]
    | succ n ih =>
      have inside : i < bytes.size := by omega
      have place : bytes.get! i = bytes.data.toList[i] := getElem!_pos bytes.data i inside
      rw [ByteArray.toList.loop, if_pos inside, ih (i + 1) _ (by omega), List.reverse_cons, place,
        List.drop_eq_getElem_cons inside, List.append_assoc]
      rfl
  rw [ByteArray.toList, loop, List.reverse_nil, List.nil_append, List.drop_zero]

theorem bytesOf (text : String) : text.toUTF8.toList = text.toList.flatMap String.utf8EncodeChar := by
  rw [bytesList, String.toUTF8, ← String.ofList_toList (s := text), String.toByteArray_ofList, List.utf8Encode,
    List.toList_data_toByteArray, String.toList_ofList]

theorem recordsOfBytes {text : String} {rows : List (List String)}
    (whole : records charMark? text.toList = rows.map (·.map String.toList)) :
    records byteMark? text.toUTF8.toList = rows.map (·.map fun field => field.toUTF8.toList) := by
  have encoded := scanEncoded utf8Encodes .recordStart [] [] text.toList
  have whole : scan charMark? .recordStart [] [] text.toList = rows.map (·.map String.toList) := whole
  rw [whole, ← bytesOf, List.map_map] at encoded
  refine encoded.trans (List.map_congr_left fun row _ => ?_)
  rw [Function.comp, List.map_map]
  exact List.map_congr_left fun field _ => (bytesOf field).symm

end TransitTimeline.Csv
