import Monkey.Lexer
import Monkey.LineTable

namespace Monkey

/-- The bytes of a text. -/
def bytesOf (cs : List Char) : List UInt8 := cs.flatMap String.utf8EncodeChar

theorem bytesOf_cons (c : Char) (cs : List Char) : bytesOf (c :: cs) = String.utf8EncodeChar c ++ bytesOf cs := by
  rw [bytesOf, List.flatMap_cons, bytesOf]

theorem bytesOf_append (cs cs' : List Char) : bytesOf (cs ++ cs') = bytesOf cs ++ bytesOf cs' := by
  rw [bytesOf, List.flatMap_append, bytesOf, bytesOf]

theorem length_bytesOf (cs : List Char) : (bytesOf cs).length = byteSize cs := by
  induction cs with
  | nil => rfl
  | cons c cs ih => rw [bytesOf_cons, List.length_append, String.length_utf8EncodeChar, ih, byteSize_cons]

theorem toByteArray_eq (source : String) : source.toByteArray = (bytesOf source.toList).toByteArray := by
  rw [bytesOf, ← List.utf8Encode, ← String.toByteArray_ofList, String.ofList_toList]

/-- Of the bytes of characters only a line feed is one. -/
theorem mem_utf8EncodeChar_iff {c : Char} : 10 ∈ String.utf8EncodeChar c ↔ c = '\n' := by
  constructor
  · intro mem
    have value : c.val.toNat = 10 := by
      unfold String.utf8EncodeChar at mem
      generalize c.val.toNat = v at mem ⊢
      dsimp only at mem
      repeat' split at mem
      -- Each byte has its highest bit set but for the only byte of a character.
      all_goals
        simp [← UInt8.toNat_inj] at mem
        omega
    exact Char.ext (UInt32.toNat.inj value)
  · rintro rfl
    decide

/-- A character begins with its first byte, and no other one can begin a character. -/
theorem countP_isUTF8FirstByte (c : Char) :
    (String.utf8EncodeChar c).countP (fun b => b.IsUTF8FirstByte) = 1 := by
  have first (i : Nat) (lt : i < (String.utf8EncodeChar c).length) :
      (String.utf8EncodeChar c)[i].IsUTF8FirstByte ↔ i = 0 := UInt8.isUTF8FirstByte_getElem_utf8EncodeChar
  generalize bytes : String.utf8EncodeChar c = bs at first ⊢
  cases bs with
  | nil => exact absurd bytes String.utf8EncodeChar_ne_nil
  | cons b bs =>
    have later : bs.countP (fun b => b.IsUTF8FirstByte) = 0 := by
      refine List.countP_eq_zero.2 fun b mem => ?_
      obtain ⟨i, lt, rfl⟩ := List.mem_iff_getElem.1 mem
      have other := (first (i + 1) (Nat.succ_lt_succ lt)).1
      simpa using fun begins => Nat.succ_ne_zero i (other begins)
    rw [List.countP_cons_of_pos (by simpa using (first 0 (Nat.zero_lt_succ _)).2 rfl), later]

namespace LineTable

/-- Goes through the bytes one by one, of which the first is at the offset. -/
def foldFrom {α : Type} (step : α → Nat → UInt8 → α) (found : α) (offset : Nat) : List UInt8 → α
  | [] => found
  | b :: bs => foldFrom step (step found offset b) (offset + 1) bs

section Folds

variable {α : Type} {step : α → Nat → UInt8 → α} {source : String} {before bytes after : List UInt8}

theorem getUTF8Byte_eq {b : UInt8} (whole : bytesOf source.toList = before ++ b :: after)
    (inside : String.Pos.Raw.mk before.length < source.rawEndPos) : source.getUTF8Byte ⟨before.length⟩ inside = b := by
  have there : source.toByteArray.data.toList[before.length]? = some b := by
    rw [toByteArray_eq, List.data_toByteArray, List.toList_toArray, whole, List.getElem?_append_right (Nat.le_refl _)]
    simp
  exact Option.some.inj ((List.getElem?_eq_getElem _).symm.trans there)

/-- What is found in a stretch of a text is found in its bytes. -/
theorem foldBytes_eq (whole : bytesOf source.toList = before ++ bytes ++ after) (found : α) {offset count : Nat}
    (starts : before.length = offset) (ends : bytes.length = count) (within : offset + count ≤ source.utf8ByteSize) :
    foldBytes step source found offset count within = foldFrom step found offset bytes := by
  induction bytes generalizing before found offset count with
  | nil =>
    subst ends
    rfl
  | cons b bs ih =>
    have whole' : bytesOf source.toList = before ++ b :: (bs ++ after) := by rw [whole, List.append_assoc]; rfl
    have further : bytesOf source.toList = before ++ [b] ++ bs ++ after := by
      rw [whole, List.append_assoc, List.append_assoc, List.append_assoc]
      rfl
    subst starts
    cases count with
    | zero => cases ends
    | succ count =>
      rw [foldBytes, foldFrom, getUTF8Byte_eq whole']
      exact ih further _ List.length_append (Nat.succ.inj ends) _

theorem foldFrom_append (found : α) (offset : Nat) (bs bs' : List UInt8) :
    foldFrom step found offset (bs ++ bs') =
      foldFrom step (foldFrom step found offset bs) (offset + bs.length) bs' := by
  induction bs generalizing found offset with
  | nil => rfl
  | cons b bs ih =>
    rw [List.cons_append, foldFrom, ih, foldFrom, List.length_cons, Nat.add_assoc, Nat.add_comm 1]

end Folds

theorem foldFrom_addCharacter (count offset : Nat) (bs : List UInt8) :
    foldFrom addCharacter count offset bs = count + bs.countP fun b => b.IsUTF8FirstByte := by
  induction bs generalizing count offset with
  | nil => rfl
  | cons b bs ih =>
    rw [foldFrom, ih, addCharacter, List.countP_cons]
    by_cases begins : b.IsUTF8FirstByte
    · simp [begins, Nat.add_assoc, Nat.add_comm 1]
    · simp [begins]

theorem foldFrom_addCharacter_bytesOf (count offset : Nat) (cs : List Char) :
    foldFrom addCharacter count offset (bytesOf cs) = count + cs.length := by
  rw [foldFrom_addCharacter]
  congr 1
  induction cs with
  | nil => rfl
  | cons c cs ih => rw [bytesOf_cons, List.countP_append, ih, countP_isUTF8FirstByte, List.length_cons, Nat.add_comm]

theorem foldFrom_addStart_of_not_mem {bs : List UInt8} (none : 10 ∉ bs) (starts : Array Nat) (offset : Nat) :
    foldFrom addStart starts offset bs = starts := by
  induction bs generalizing offset with
  | nil => rfl
  | cons b bs ih =>
    rw [List.mem_cons, not_or] at none
    rw [foldFrom, addStart, if_neg fun feed => none.1 feed.symm]
    exact ih none.2 _

theorem foldFrom_addStart_utf8EncodeChar (starts : Array Nat) (offset : Nat) (c : Char) :
    foldFrom addStart starts offset (String.utf8EncodeChar c) =
      if c = '\n' then starts.push (min (offset + 1) Span.maxOffset) else starts := by
  split
  · next feed =>
    subst feed
    rfl
  · next other => exact foldFrom_addStart_of_not_mem (fun mem => other (mem_utf8EncodeChar_iff.1 mem)) _ _

end LineTable

end Monkey
