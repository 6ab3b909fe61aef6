import Mathlib.Data.List.DropRight
import Monkey.Proofs.ErrorPositions
import Monkey.Proofs.TextBytes
import Monkey.Proofs.TokenPlaces
import Monkey.Report

namespace Monkey

namespace LineTable

/-- The line and column behind a text: one more than its line feeds, and one more than the characters after the last of
these. -/
def endOf (text : List Char) : Nat × Nat := (1 + text.count '\n', 1 + (text.rtakeWhile (· ≠ '\n')).length)

/-- Where the lines of a text start, but for the first, if it stands at the offset. -/
def startsFrom (offset : Nat) : List Char → List Nat
  | [] => []
  | c :: cs => (if c = '\n' then [offset + c.utf8Size] else []) ++ startsFrom (offset + c.utf8Size) cs

section Starts

variable {offset x : Nat} {cs before : List Char}

theorem startsFrom_append (after : List Char) :
    startsFrom offset (before ++ after) = startsFrom offset before ++ startsFrom (offset + byteSize before) after := by
  induction before generalizing offset with
  | nil => rfl
  | cons c before ih =>
    rw [List.cons_append, startsFrom, ih, startsFrom, List.append_assoc, byteSize_cons, Nat.add_assoc]

theorem length_startsFrom : (startsFrom offset cs).length = cs.count '\n' := by
  induction cs generalizing offset with
  | nil => rfl
  | cons c cs ih =>
    rw [startsFrom, List.length_append, ih, List.count_cons, Nat.add_comm]
    by_cases feed : c = '\n' <;> simp [feed]

theorem bounds_of_mem_startsFrom (mem : x ∈ startsFrom offset cs) : offset ≤ x ∧ x ≤ offset + byteSize cs := by
  induction cs generalizing offset with
  | nil => cases mem
  | cons c cs ih =>
    rw [byteSize_cons]
    rcases List.mem_append.1 mem with here | later
    · split at here
      · rw [List.mem_singleton.1 here]
        omega
      · cases here
    · have bounds := ih later
      omega

/-- No line starts before the end of the first character. -/
theorem le_of_mem_startsFrom_cons {c : Char} (mem : x ∈ startsFrom offset (c :: cs)) : offset + c.utf8Size ≤ x := by
  rcases List.mem_append.1 mem with here | later
  · split at here
    · exact Nat.le_of_eq (List.mem_singleton.1 here).symm
    · cases here
  · exact (bounds_of_mem_startsFrom later).1

theorem startsFrom_ascending : (startsFrom offset cs).Pairwise (· ≤ ·) := by
  induction cs generalizing offset with
  | nil => exact .nil
  | cons c cs ih =>
    rw [startsFrom]
    split
    · exact .cons (fun x later => (bounds_of_mem_startsFrom later).1) ih
    · exact ih

/-- Up to an offset, so many lines start as line feeds are before it. -/
theorem countP_startsFrom {bound : Nat} {after : List Char} (reached : offset + byteSize before ≤ bound)
    (ahead : ∀ c ∈ after.head?, bound < offset + byteSize before + c.utf8Size) :
    (startsFrom offset (before ++ after)).countP (· ≤ bound) = before.count '\n' := by
  rw [startsFrom_append, List.countP_append, List.countP_eq_length.2, List.countP_eq_zero.2, length_startsFrom,
    Nat.add_zero]
  · intro x mem
    cases after with
    | nil => cases mem
    | cons c cs =>
      have low := le_of_mem_startsFrom_cons mem
      have := ahead c rfl
      simp only [decide_eq_true_eq]
      omega
  · intro x mem
    have high := (bounds_of_mem_startsFrom mem).2
    simp only [decide_eq_true_eq]
    omega

/-- The last line of a text starts behind its last line feed. -/
theorem getLast?_startsFrom (text : List Char) :
    (0 :: startsFrom 0 text).getLast? = some (byteSize (text.rdropWhile (· ≠ '\n'))) := by
  induction text using List.reverseRecOn with
  | nil => rfl
  | append_singleton text c ih =>
    rw [startsFrom_append, Nat.zero_add, ← List.cons_append]
    by_cases feed : c = '\n'
    · rw [List.rdropWhile_concat_neg _ _ _ (by simpa using feed), startsFrom, if_pos feed, startsFrom, List.append_nil,
        List.getLast?_concat, byteSize_append, byteSize_cons, byteSize_nil, Nat.add_zero]
    · rw [List.rdropWhile_concat_pos _ _ _ (by simpa using feed), startsFrom, if_neg feed, startsFrom, List.append_nil,
        List.append_nil, ih]

theorem getElem?_starts (text after : List Char) :
    (0 :: startsFrom 0 (text ++ after))[text.count '\n']? = some (byteSize (text.rdropWhile (· ≠ '\n'))) := by
  have count : (0 :: startsFrom 0 text).length = text.count '\n' + 1 := congrArg (· + 1) length_startsFrom
  rw [startsFrom_append, ← List.cons_append, List.getElem?_append_left (by omega), ← getLast?_startsFrom,
    List.getLast?_eq_getElem?, count, Nat.add_sub_cancel]

end Starts

section Table

variable {source : String} {before middle after : List Char} {bound offset n : Nat}

theorem foldFrom_addStart_bytesOf (starts : Array Nat) (offset : Nat) (cs : List Char) :
    (foldFrom addStart starts offset (bytesOf cs)).toList =
      starts.toList ++ (startsFrom offset cs).map (min · Span.maxOffset) := by
  induction cs generalizing starts offset with
  | nil => exact (List.append_nil _).symm
  | cons c cs ih =>
    rw [bytesOf_cons, foldFrom_append, foldFrom_addStart_utf8EncodeChar, String.length_utf8EncodeChar, ih, startsFrom]
    split
    · next feed =>
      subst feed
      rw [Array.toList_push, List.append_assoc]
      rfl
    · rfl

/-- No line of a short text starts at an offset that is too large. -/
theorem starts_ofString (short : source.utf8ByteSize < UInt32.size) :
    (ofString source).starts.toList = 0 :: startsFrom 0 source.toList := by
  have whole : bytesOf source.toList = [] ++ bytesOf source.toList ++ [] := (List.append_nil _).symm
  have count : (bytesOf source.toList).length = source.utf8ByteSize := by rw [length_bytesOf, byteSize_toList]
  have held (x : Nat) (mem : x ∈ startsFrom 0 source.toList) : min x Span.maxOffset = x := by
    have bounds := (bounds_of_mem_startsFrom mem).2
    rw [Nat.zero_add, byteSize_toList] at bounds
    exact Nat.min_eq_left (Nat.le_trans bounds (Nat.le_pred_of_lt short))
  have found : foldBytes addStart source #[0] 0 source.utf8ByteSize (Nat.le_of_eq (Nat.zero_add _)) =
      foldFrom addStart #[0] 0 (bytesOf source.toList) := foldBytes_eq whole #[0] rfl count _
  rw [ofString, found, foldFrom_addStart_bytesOf, List.map_congr_left held, List.map_id']
  rfl

theorem lineCount_ofString (short : source.utf8ByteSize < UInt32.size) :
    (ofString source).lineCount = 1 + source.toList.count '\n' := by
  rw [lineCount, ← Array.length_toList, starts_ofString short, List.length_cons, length_startsFrom, Nat.add_comm]

/-- The search finds out how many line feeds are before an offset that is behind the one text and not behind the next
character. -/
theorem rank_starts (short : source.utf8ByteSize < UInt32.size) (whole : source.toList = before ++ after)
    (reached : byteSize before ≤ bound) (ahead : ∀ c ∈ after.head?, bound < byteSize before + c.utf8Size) :
    rank (ofString source).starts bound = before.count '\n' + 1 := by
  have ascending : (ofString source).starts.toList.Pairwise (· ≤ ·) := by
    rw [starts_ofString short]
    exact .cons (fun _ _ => Nat.zero_le _) startsFrom_ascending
  rw [rank_eq_countP ascending, ← Array.countP_toList, starts_ofString short, whole, List.countP_cons_of_pos (by simp),
    countP_startsFrom (by omega) (by simpa using ahead)]

theorem toNat_ordinal (small : n < Span.maxOffset) : (ordinal n).toNat = n + 1 := by
  have lt : n < UInt32.size := Nat.lt_trans small (by decide)
  rw [ordinal, if_pos lt, UInt32.toNat_add, UInt32.toNat_ofNat_of_lt' lt]
  exact Nat.mod_eq_of_lt (Nat.add_lt_of_lt_sub small)

/-- What adding one does is undone, even where it has gone around to zero. -/
theorem toNat_ordinal_sub_one (lt : n < UInt32.size) : (ordinal n - 1).toNat = n := by
  rw [ordinal, if_pos lt, UInt32.add_sub_cancel, UInt32.toNat_ofNat_of_lt' lt]

theorem byteSize_le_of_boundary (whole : source.toList = before ++ after) : byteSize before ≤ source.utf8ByteSize := by
  rw [← byteSize_toList, whole, byteSize_append]
  exact Nat.le_add_right _ _

theorem isValid_of_boundary (whole : source.toList = before ++ after) :
    (String.Pos.Raw.mk (byteSize before)).isValid source = true := by
  rw [String.Pos.Raw.isValid_eq_true_iff, String.Pos.Raw.isValid_iff_exists_append]
  refine ⟨.ofList before, .ofList after, ?_, ?_⟩
  · rw [← String.ofList_append, ← whole, String.ofList_toList]
  · exact congrArg _ (by rw [← byteSize_toList, String.toList_ofList])

theorem charactersBetween_eq (whole : source.toList = before ++ middle ++ after) :
    charactersBetween source (byteSize before) (byteSize before + byteSize middle) = middle.length := by
  have le := byteSize_le_of_boundary whole
  rw [byteSize_append] at le
  have begins := isValid_of_boundary (whole.trans (List.append_assoc ..))
  have ends := isValid_of_boundary whole
  rw [byteSize_append] at ends
  have bytes : bytesOf source.toList = bytesOf before ++ bytesOf middle ++ bytesOf after := by
    rw [whole, bytesOf_append, bytesOf_append]
  rw [charactersBetween, dif_pos ⟨Nat.le_add_right _ _, le, begins, ends⟩, foldBytes_eq bytes 0 (length_bytesOf _),
    foldFrom_addCharacter_bytesOf, Nat.zero_add]
  rw [length_bytesOf, Nat.add_sub_cancel_left]

/-- In a short text the table counts the line feeds before an offset between characters, and the characters behind the
last of these. -/
theorem position_of_boundary (short : source.utf8ByteSize < UInt32.size) (whole : source.toList = before ++ after) :
    (ofString source).position source (byteSize before) =
      (ordinal (before.count '\n'), ordinal (before.rtakeWhile (· ≠ '\n')).length) := by
  have le := byteSize_le_of_boundary whole
  have line : (ofString source).lineAt (byteSize before) = ordinal (before.count '\n') := by
    rw [lineAt, rank_starts short whole (Nat.le_refl _) fun c _ => Nat.lt_add_of_pos_right c.utf8Size_pos,
      Nat.add_sub_cancel]
  have few : before.count '\n' < UInt32.size := by
    have := before.count_le_length (a := '\n')
    have := length_le_byteSize before
    omega
  -- The line that the offset is in starts behind the last line feed before it.
  have parts : before.rdropWhile (· ≠ '\n') ++ before.rtakeWhile (· ≠ '\n') = before :=
    List.rdropWhile_append_rtakeWhile
  have start : (ofString source).starts.getD (before.count '\n') 0 = byteSize (before.rdropWhile (· ≠ '\n')) := by
    rw [Array.getD_eq_getD_getElem?, ← Array.getElem?_toList, starts_ofString short, whole, getElem?_starts,
      Option.getD_some]
  have size := congrArg byteSize parts
  rw [byteSize_append] at size
  have whole' : source.toList = before.rdropWhile (· ≠ '\n') ++ before.rtakeWhile (· ≠ '\n') ++ after := by
    rw [parts, whole]
  unfold position
  dsimp only
  rw [line, toNat_ordinal_sub_one few, start, Nat.min_eq_left le, ← size, charactersBetween_eq whole']

/-- Behind the end of the text the table gives the place of the end. -/
theorem position_of_beyond (short : source.utf8ByteSize < UInt32.size) (beyond : source.utf8ByteSize ≤ offset) :
    (ofString source).position source offset = (ofString source).position source source.utf8ByteSize := by
  have whole : source.toList = source.toList ++ [] := (List.append_nil _).symm
  rw [← byteSize_toList] at beyond
  have line := rank_starts short whole beyond nofun
  have line' := rank_starts short whole (Nat.le_refl _) nofun
  rw [byteSize_toList] at beyond line'
  unfold position lineAt
  rw [line, line', Nat.min_eq_right beyond, Nat.min_self]

end Table

section Told

variable {source : String} {before after : List Char} {cs : List Char}

/-- A text with so many lines, or with so many characters in its only line, that 32 bits do not hold the number of the
one at its end. -/
def Overlong (source : String) : Prop :=
  source.utf8ByteSize = Span.maxOffset ∧
    ((∀ c ∈ source.toList, c = '\n') ∨ ∀ c ∈ source.toList, c ≠ '\n' ∧ c.utf8Size = 1)

/-- 32 bits hold the line and the column of the offset. -/
def Told (source : String) (offset : Nat) : Prop := Overlong source → offset < source.utf8ByteSize

theorem Told.of_lt {offset : Nat} (inside : offset < source.utf8ByteSize) : Told source offset := fun _ => inside

theorem Told.of_le {earlier offset : Nat} (told : Told source offset) (le : earlier ≤ offset) : Told source earlier :=
  fun long => Nat.lt_of_le_of_lt le (told long)

theorem utf8Size_eq_one_of_byteSize (same : byteSize cs = cs.length) : ∀ c ∈ cs, c.utf8Size = 1 := by
  induction cs with
  | nil => exact nofun
  | cons c cs ih =>
    rw [byteSize_cons, List.length_cons] at same
    have := length_le_byteSize cs
    have := c.utf8Size_pos
    have others : byteSize cs = cs.length := by omega
    exact List.forall_mem_cons.2 ⟨by omega, ih others⟩

/-- A short text has fewer lines and columns before an offset that can be told than there are offsets. -/
theorem Told.counts_lt (short : source.utf8ByteSize < UInt32.size) (whole : source.toList = before ++ after)
    (told : Told source (byteSize before)) :
    before.count '\n' < Span.maxOffset ∧ (before.rtakeWhile (· ≠ '\n')).length < Span.maxOffset := by
  have size : byteSize before + byteSize after = source.utf8ByteSize := by
    rw [← byteSize_append, ← whole, byteSize_toList]
  have most : source.utf8ByteSize ≤ Span.maxOffset := Nat.le_pred_of_lt short
  have length := length_le_byteSize before
  have length' := length_le_byteSize after
  -- If there are as many, the offset is the end of an overlong text.
  have never (many : Span.maxOffset ≤ before.length)
      (kinds : (∀ c ∈ before, c = '\n') ∨ ∀ c ∈ before, c ≠ '\n' ∧ c.utf8Size = 1) : False := by
    have nothing : after = [] := List.length_eq_zero_iff.1 (by omega)
    have same : source.toList = before := by rw [whole, nothing, List.append_nil]
    have inside := told ⟨by omega, same.symm ▸ kinds⟩
    omega
  refine ⟨Nat.lt_of_not_le fun many => ?_, Nat.lt_of_not_le fun many => ?_⟩
  · have le := before.count_le_length (a := '\n')
    have feeds := List.count_eq_length.1 (show before.count '\n' = before.length by omega)
    exact never (by omega) (.inl fun c mem => (feeds c mem).symm)
  · have suffix := List.rtakeWhile_suffix (· ≠ '\n') before
    have le := suffix.length_le
    have same := suffix.eq_of_length (by omega)
    refine never (by omega) (.inr fun c mem => ⟨?_, utf8Size_eq_one_of_byteSize (by omega) c mem⟩)
    rw [← same] at mem
    simpa using List.mem_rtakeWhile_imp mem

end Told

section Order

variable {text more : List Char}

/-- A character more moves the end on, along the line or to the next one. -/
theorem endOf_lt_concat (text : List Char) (c : Char) :
    Prod.Lex (· < ·) (· < ·) (endOf text) (endOf (text ++ [c])) := by
  rw [Prod.lex_def]
  by_cases feed : c = '\n'
  · left
    simp [endOf, feed]
  · right
    simp [endOf, feed]

theorem endOf_lt_append (some : more ≠ []) : Prod.Lex (· < ·) (· < ·) (endOf text) (endOf (text ++ more)) := by
  induction more using List.reverseRecOn with
  | nil => exact absurd rfl some
  | append_singleton more c ih =>
    rw [← List.append_assoc]
    cases more with
    | nil =>
      rw [List.append_nil]
      exact endOf_lt_concat text c
    | cons d more =>
      have first := ih (List.cons_ne_nil d more)
      have last := endOf_lt_concat (text ++ d :: more) c
      rw [Prod.lex_def] at first last ⊢
      omega

/-- Of two boundaries in a text, what is before the later one goes on after the earlier one. -/
theorem exists_append_of_boundaries {before after before' after' : List Char}
    (same : before ++ after = before' ++ after') (lt : byteSize before < byteSize before') :
    ∃ more, more ≠ [] ∧ before' = before ++ more := by
  rcases List.append_eq_append_iff.1 same with ⟨more, rfl, _⟩ | ⟨more, rfl, _⟩
  · refine ⟨more, ?_, rfl⟩
    rintro rfl
    rw [List.append_nil] at lt
    exact Nat.lt_irrefl _ lt
  · rw [byteSize_append] at lt
    omega

end Order

/-- Line and column as numbers. -/
def place (t : LineTable) (source : String) (offset : Nat) : Nat × Nat :=
  ((t.position source offset).1.toNat, (t.position source offset).2.toNat)

section Places

variable {source : String} {before after : List Char}

theorem place_of_boundary (short : source.utf8ByteSize < UInt32.size) (whole : source.toList = before ++ after)
    (told : Told source (byteSize before)) : (ofString source).place source (byteSize before) = endOf before := by
  obtain ⟨lines, columns⟩ := told.counts_lt short whole
  rw [place, position_of_boundary short whole, toNat_ordinal lines, toNat_ordinal columns, endOf, Nat.add_comm 1,
    Nat.add_comm 1]

/-- The line of an offset that is behind the one text and not behind the next character. -/
theorem line_of_cut {offset : Nat} (short : source.utf8ByteSize < UInt32.size) (whole : source.toList = before ++ after)
    (reached : byteSize before ≤ offset) (ahead : ∀ c ∈ after.head?, offset < byteSize before + c.utf8Size)
    (told : Told source offset) : ((ofString source).place source offset).1 = 1 + before.count '\n' := by
  have few := ((told.of_le reached).counts_lt short whole).1
  change (ordinal _).toNat = _
  rw [rank_starts short whole reached ahead, Nat.add_sub_cancel, toNat_ordinal few, Nat.add_comm]

/-- Every offset is behind some part of the text, and not behind the next character. -/
theorem exists_cut (cs : List Char) (offset : Nat) : ∃ before after, cs = before ++ after ∧ byteSize before ≤ offset ∧
    ∀ c ∈ after.head?, offset < byteSize before + c.utf8Size := by
  induction cs generalizing offset with
  | nil => exact ⟨[], [], rfl, Nat.zero_le _, nofun⟩
  | cons c cs ih =>
    by_cases inside : offset < c.utf8Size
    · refine ⟨[], c :: cs, rfl, Nat.zero_le _, fun d first => ?_⟩
      cases first
      rwa [byteSize_nil, Nat.zero_add]
    · obtain ⟨before, after, whole, reached, ahead⟩ := ih (offset - c.utf8Size)
      refine ⟨c :: before, after, congrArg (c :: ·) whole, ?_, fun d first => ?_⟩
      · rw [byteSize_cons]
        omega
      · have := ahead d first
        rw [byteSize_cons]
        omega

end Places

/-- What it means that the table is that of the source, where lines and columns can be told. Offsets between characters
are those behind the one part when the source is cut in two. -/
structure Exact (source : String) (t : LineTable) : Prop where
  position : ∀ {before after : String}, source = before ++ after → Told source before.utf8ByteSize →
    t.place source before.utf8ByteSize = endOf before.toList
  increasing : ∀ {before after before' after' : String}, source = before ++ after → source = before' ++ after' →
    before.utf8ByteSize < before'.utf8ByteSize → Told source before'.utf8ByteSize →
      Prod.Lex (· < ·) (· < ·) (t.place source before.utf8ByteSize) (t.place source before'.utf8ByteSize)
  distinct : ∀ {before after before' after' : String}, source = before ++ after → source = before' ++ after' →
    Told source before.utf8ByteSize → Told source before'.utf8ByteSize →
      t.place source before.utf8ByteSize = t.place source before'.utf8ByteSize →
        before.utf8ByteSize = before'.utf8ByteSize
  lines : ∀ offset, Told source offset →
    1 ≤ (t.place source offset).1 ∧ (t.place source offset).1 ≤ t.lineCount
  beyond : ∀ {offset}, source.utf8ByteSize ≤ offset →
    t.position source offset = t.position source source.utf8ByteSize
  inside : ∀ {before after : String} {c : Char} {offset}, source = before ++ String.singleton c ++ after →
    before.utf8ByteSize < offset → offset < before.utf8ByteSize + c.utf8Size →
      (t.place source offset).1 = 1 + before.toList.count '\n'

theorem exact_ofString {source : String} (short : source.utf8ByteSize < UInt32.size) :
    (ofString source).Exact source := by
  have position {before after : String} (whole : source = before ++ after) (told : Told source before.utf8ByteSize) :
      (ofString source).place source before.utf8ByteSize = endOf before.toList := by
    rw [← byteSize_toList] at told ⊢
    exact place_of_boundary short (whole ▸ String.toList_append) told
  have increasing {before after before' after' : String} (whole : source = before ++ after)
      (whole' : source = before' ++ after') (lt : before.utf8ByteSize < before'.utf8ByteSize)
      (told : Told source before'.utf8ByteSize) :
      Prod.Lex (· < ·) (· < ·) ((ofString source).place source before.utf8ByteSize)
        ((ofString source).place source before'.utf8ByteSize) := by
    have same : before.toList ++ after.toList = before'.toList ++ after'.toList := by
      rw [← String.toList_append, ← String.toList_append, ← whole, ← whole']
    rw [position whole (told.of_le (Nat.le_of_lt lt)), position whole' told]
    rw [← byteSize_toList, ← byteSize_toList] at lt
    obtain ⟨more, some, on⟩ := exists_append_of_boundaries same lt
    rw [on]
    exact endOf_lt_append some
  refine ⟨position, increasing, fun {before after before' after'} whole whole' told told' same => ?_,
    fun offset told => ?_, position_of_beyond short, fun {before after c offset} whole past within => ?_⟩
  · by_contra apart
    rcases Nat.lt_or_gt_of_ne apart with lt | gt
    · have later := increasing whole whole' lt told'
      rw [Prod.lex_def, same] at later
      omega
    · have later := increasing whole' whole gt told
      rw [Prod.lex_def, same] at later
      omega
  · obtain ⟨before, after, whole, reached, ahead⟩ := exists_cut source.toList offset
    rw [line_of_cut short whole reached ahead told, lineCount_ofString short, whole, List.count_append]
    omega
  · have whole' : source.toList = before.toList ++ c :: after.toList := by simp [whole]
    have size : byteSize before.toList + c.utf8Size ≤ source.utf8ByteSize := by
      rw [← byteSize_toList, whole', byteSize_append, byteSize_cons]
      omega
    rw [← byteSize_toList] at past within
    refine line_of_cut short whole' (Nat.le_of_lt past) (fun d next => ?_) (.of_lt (Nat.lt_of_lt_of_le within size))
    cases next
    exact within

/-- At the end of a text of so many letters the column is one more than 32 bits hold. -/
theorem place_end_of_letters :
    let source : String := .ofList (List.replicate Span.maxOffset 'a')
    source.utf8ByteSize < UInt32.size ∧ source = source ++ "" ∧ endOf source.toList = (1, UInt32.size) ∧
      (ofString source).place source source.utf8ByteSize = (1, 0) ∧
      (ofString source).place source source.utf8ByteSize ≠ endOf source.toList := by
  intro source
  have letters : source.toList = List.replicate Span.maxOffset 'a' := String.toList_ofList
  have noFeed : source.toList.count '\n' = 0 := by rw [letters, List.count_replicate, if_neg (by decide)]
  have line : source.toList.rtakeWhile (· ≠ '\n') = source.toList := by
    rw [letters, List.rtakeWhile_eq_self_iff]
    intro c mem
    rw [List.eq_of_mem_replicate mem]
    rfl
  have columns : source.toList.length = Span.maxOffset := by rw [letters, List.length_replicate]
  have bytes (n : Nat) : byteSize (List.replicate n 'a') = n := by
    induction n with
    | zero => rfl
    | succ n ih =>
      rw [List.replicate_succ, byteSize_cons, ih]
      exact Nat.add_comm 1 n
  have size : source.utf8ByteSize = Span.maxOffset := by rw [← byteSize_toList, letters, bytes]
  have short : source.utf8ByteSize < UInt32.size := by
    rw [size]
    decide
  have whole : source.toList = source.toList ++ [] := (List.append_nil _).symm
  have claimed : endOf source.toList = (1, UInt32.size) := by
    rw [endOf, noFeed, line, columns]
    rfl
  have found : (ofString source).place source source.utf8ByteSize = (1, 0) := by
    rw [place, ← byteSize_toList, position_of_boundary short whole, noFeed, line, columns]
    decide
  refine ⟨short, String.append_empty.symm, claimed, found, ?_⟩
  rw [claimed, found]
  decide

end LineTable

section Printed

variable {source label : String} {e : ParseError}

/-- The line tells the error, with the place of the token that it is on if that can be told. -/
def Located (source label : String) (e : ParseError) (line : String) : Prop :=
  ∃ before after : String, source = before ++ after ∧ e.span.start = before.utf8ByteSize ∧
    (LineTable.Told source e.span.start →
      line = s!"{label}:{(LineTable.endOf before.toList).1}:{(LineTable.endOf before.toList).2}: {e.message}")

open Monkey.Parser in
theorem exists_token_of_error (mem : e ∈ (parse source).errors) : ∃ i, e.span = (tokenAt source i).span := by
  obtain ⟨trace, ss, t, run, same⟩ := exists_traces_parse source
  have start : Tallies (statements false) (State.start source) := tallies_call nofun
  obtain ⟨moved, marks, account⟩ := tally_of_traces start (State.aligned_start source) run
  have errors : t.errors.toList = marks.map Mark.error := account.errors
  rw [same, errors] at mem
  obtain ⟨m, listed, rfl⟩ := List.mem_map.1 mem
  have on := (account.inside m listed).2.span_eq
  refine ⟨m.moved + m.slot.ahead, on.trans ?_⟩
  change (((Cursor.ofString source).advanced m.moved).token m.slot).span = _
  rw [Cursor.ofString, Cursor.advanced_ofLexer, Cursor.token_ofLexer]
  rfl

theorem located_errorLine (short : source.utf8ByteSize < UInt32.size) (label : String)
    (mem : e ∈ (parse source).errors) :
    Located source label e (Report.errorLine label source (LineTable.ofString source) e) := by
  obtain ⟨i, span⟩ := exists_token_of_error mem
  obtain ⟨before, after, whole, start⟩ := exists_boundary short i
  have start : e.span.start = before.utf8ByteSize := by rw [span, start]
  refine ⟨before, after, whole, start, fun told => ?_⟩
  rw [start] at told
  rw [← (LineTable.exact_ofString short).position whole told, Report.errorLine, start]
  rfl

/-- Lines and columns are exact, and so is every place that is printed: in a text that is not too long for spans, each
error is told with the line and column of the token that it is on, where the statements of the text are listed and where
it is run. -/
theorem positions_exact (short : source.utf8ByteSize < UInt32.size) :
    (LineTable.ofString source).Exact source ∧
      ∀ label : String, ∃ lines, List.Forall₂ (Located source label) (parse source).errors lines ∧
        ((parse source).errors ≠ [] →
          Report.statements label source = ⟨1, Report.lines (s!"Errors in '{label}':" :: lines.map ("  " ++ ·))⟩ ∧
            ∀ s : Session, (Report.run? s label source).1 = some ⟨1, Report.lines lines⟩) := by
  refine ⟨LineTable.exact_ofString short, fun label => ?_⟩
  refine ⟨Report.errorLines label source (parse source).errors, ?_, fun wrong => ⟨?_, fun s => ?_⟩⟩
  · rw [Report.errorLines, List.forall₂_map_right_iff, List.forall₂_same]
    exact fun e mem => located_errorLine short label mem
  · unfold Report.statements
    exact if_neg (by simpa using wrong)
  · rw [Report.run?, Session.evalSource_of_errors s wrong]
    rfl

/-- The errors are on the second line, behind a letter of two bytes and an illegal one. -/
theorem positions_exact_secondLine :
    let source := "\"é\" +\n let ö let"
    source.utf8ByteSize < UInt32.size ∧ (LineTable.ofString source).Exact source ∧
      (LineTable.ofString source).place source 15 = (2, 8) ∧
      ∃ lines, List.Forall₂ (Located source "a") (parse source).errors lines ∧
        Report.statements "a" source = ⟨1, Report.lines ("Errors in 'a':" :: lines.map ("  " ++ ·))⟩ := by
  intro source
  have short : source.utf8ByteSize < UInt32.size := by decide
  obtain ⟨exact_, printed⟩ := positions_exact short
  obtain ⟨lines, located, listed⟩ := printed "a"
  have cut : source = "\"é\" +\n let ö " ++ "let" := by decide
  have size : ("\"é\" +\n let ö ").utf8ByteSize = 15 := by decide
  have ends : LineTable.endOf ("\"é\" +\n let ö ").toList = (2, 8) := by decide
  have place := exact_.position cut (.of_lt (by decide))
  rw [size, ends] at place
  exact ⟨short, exact_, place, lines, located, (listed (by decide +kernel)).1⟩

end Printed

end Monkey
