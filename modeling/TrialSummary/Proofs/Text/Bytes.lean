import Mathlib.Data.List.TakeWhile
import TrialSummary.Proofs.Text.Lines

/-!
# Lines of bytes

Bytes can be decoded as a whole and then cut at the line feeds, or they can be cut first and decoded
line by line. In UTF-8 both ways give the same, because the byte of a line feed is part of no other
character: it stands in the encoded text where a line feed stands in the text and nowhere else. So
the lines of some bytes can be decoded exactly if the bytes as a whole can.

Every text is one that was written line by line, which leaves its lines to be counted on the written
form: one for each line feed, and one more for what stands behind the last of them.
-/

namespace TrialSummary.Text

def feedByte : UInt8 := 10

def encode (cs : List Char) : List UInt8 := cs.flatMap String.utf8EncodeChar

def decode? (bs : List UInt8) : Option (List Char) :=
  (String.fromUTF8? bs.toByteArray).map String.toList

/-- What stands behind the first of them is shorter than the whole. -/
theorem length_lt_of_dropWhile_eq_cons {p : UInt8 → Bool} {bs back : List UInt8} {b : UInt8}
    (h : bs.dropWhile p = b :: back) : back.length < bs.length := by
  have hlength := bs.length_dropWhile_le p
  rw [h, List.length_cons] at hlength
  exact hlength

/-- The lines of some bytes, read one after the other: the bytes up to the next line feed are decoded
for themselves, and what follows is read only if that succeeds. -/
def decodeLines? (bs : List UInt8) : Option (List (List Char)) :=
  match h : bs.dropWhile (· ≠ feedByte) with
  | [] => (decode? bs).map fun rest => if rest = [] then [] else [rest]
  | _ :: back => do
    have := length_lt_of_dropWhile_eq_cons h
    let line ← decode? (bs.takeWhile (· ≠ feedByte))
    let following ← decodeLines? back
    return dropReturn line :: following
termination_by bs.length

section Encoding

@[simp] theorem encode_nil : encode [] = [] := rfl

@[simp] theorem encode_cons (c : Char) (cs : List Char) :
    encode (c :: cs) = String.utf8EncodeChar c ++ encode cs := rfl

@[simp] theorem encode_append (front back : List Char) :
    encode (front ++ back) = encode front ++ encode back := List.flatMap_append

@[simp] theorem encodeChar_feed : String.utf8EncodeChar '\n' = [feedByte] := rfl

theorem utf8Encode_eq (cs : List Char) : cs.utf8Encode = (encode cs).toByteArray := rfl

theorem encode_eq_nil {cs : List Char} : encode cs = [] ↔ cs = [] := by
  cases cs <;> simp

theorem toByteArray_inj {bs bs' : List UInt8} : bs.toByteArray = bs'.toByteArray ↔ bs = bs' := by
  refine ⟨fun h => ?_, congrArg _⟩
  simpa using congrArg (fun b : ByteArray => b.data.toList) h

/-- No other character has the byte of a line feed: characters of one byte have different bytes, and
the bytes of all others are `128` or more. -/
theorem feedByte_mem_encodeChar {c : Char} : feedByte ∈ String.utf8EncodeChar c ↔ c = '\n' := by
  constructor
  · intro h
    have hbyte {n : Nat} : feedByte = UInt8.ofNat n ↔ n % 256 = 10 := by
      rw [← UInt8.toNat_inj, eq_comm]
      simp [feedByte]
    have hval : c.val.toNat = 10 := by
      rw [String.utf8EncodeChar] at h
      split at h
      · rw [List.mem_singleton, hbyte] at h
        omega
      simp only [apply_ite (feedByte ∈ ·), List.mem_cons, List.not_mem_nil, or_false, hbyte] at h
      split at h
      · omega
      split at h <;> omega
    exact Char.toNat_inj.mp hval
  · rintro rfl
    simp

theorem feedByte_mem_encode {cs : List Char} : feedByte ∈ encode cs ↔ '\n' ∈ cs := by
  simp [encode, List.mem_flatMap, feedByte_mem_encodeChar]

/-- A line feed in the bytes is a line feed of the text. -/
theorem encode_eq_append_feed_iff {cs : List Char} {front back : List UInt8} :
    encode cs = front ++ feedByte :: back ↔
      ∃ start rest, cs = start ++ '\n' :: rest ∧ encode start = front ∧ encode rest = back := by
  refine ⟨fun h => ?_, ?_⟩
  · induction cs generalizing front with
    | nil => simp at h
    | cons c cs ih =>
      rw [encode_cons, List.append_eq_append_iff] at h
      rcases h with ⟨gap, hfront, hcs⟩ | ⟨gap, hchar, hback⟩
      · obtain ⟨start, rest, rfl, hstart, hrest⟩ := ih hcs
        exact ⟨c :: start, rest, rfl, by rw [encode_cons, hstart, hfront], hrest⟩
      · cases gap with
        | nil =>
          have hcs : encode cs = [] ++ feedByte :: back := hback.symm
          obtain ⟨start, rest, rfl, hstart, hrest⟩ := ih hcs
          refine ⟨c :: start, rest, rfl, ?_, hrest⟩
          simp [hstart, hchar]
        | cons b gap =>
          obtain ⟨rfl, hcs⟩ := List.cons.inj hback
          have hc : c = '\n' := feedByte_mem_encodeChar.mp (by simp [hchar])
          subst hc
          obtain ⟨rfl, rfl⟩ : front = [] ∧ gap = [] := by
            have hlength := congrArg List.length hchar
            simp only [encodeChar_feed, List.length_append, List.length_cons,
              List.length_nil] at hlength
            exact ⟨List.length_eq_zero_iff.mp (by omega), List.length_eq_zero_iff.mp (by omega)⟩
          exact ⟨[], cs, rfl, rfl, hcs.symm⟩
  · rintro ⟨start, rest, rfl, rfl, rfl⟩
    simp

theorem count_encode (cs : List Char) : (encode cs).count feedByte = cs.count '\n' := by
  induction cs with
  | nil => rfl
  | cons c cs ih =>
    rw [encode_cons, List.count_append, ih, List.count_cons, Nat.add_comm]
    by_cases hc : c = '\n'
    · subst hc
      simp
    · have hnotMem : feedByte ∉ String.utf8EncodeChar c := mt feedByte_mem_encodeChar.mp hc
      rw [List.count_eq_zero_of_not_mem hnotMem]
      simp [hc]

theorem getLast?_encode_eq_feed_iff {cs : List Char} :
    (encode cs).getLast? = some feedByte ↔ cs.getLast? = some '\n' := by
  simp only [List.getLast?_eq_some_iff]
  refine ⟨?_, ?_⟩
  · rintro ⟨front, h⟩
    obtain ⟨start, rest, rfl, -, hrest⟩ := encode_eq_append_feed_iff.mp h
    exact ⟨start, by rw [encode_eq_nil.mp hrest]⟩
  · rintro ⟨start, rfl⟩
    exact ⟨encode start, by simp⟩

end Encoding

section Decoding

/-- Decoding undoes encoding, and it gives a text for nothing else. -/
theorem decode?_eq_some_iff {bs : List UInt8} {cs : List Char} :
    decode? bs = some cs ↔ encode cs = bs := by
  simp only [decode?, Option.map_eq_some_iff, String.fromUTF8?]
  refine ⟨?_, ?_⟩
  · rintro ⟨s, hs, rfl⟩
    split at hs
    · obtain rfl := Option.some.inj hs
      rw [← toByteArray_inj, ← utf8Encode_eq, String.utf8Encode_toList]
      rfl
    · simp at hs
  · rintro rfl
    have hvalid : (encode cs).toByteArray.IsValidUTF8 := ⟨cs, (utf8Encode_eq cs).symm⟩
    refine ⟨String.ofList cs, ?_, String.toList_ofList⟩
    rw [dif_pos hvalid, Option.some_inj, ← String.toByteArray_inj, String.toByteArray_ofList]
    rfl

theorem decode?_data (bytes : ByteArray) :
    decode? bytes.data.toList = (String.fromUTF8? bytes).map String.toList := by
  have hbytes : bytes.data.toList.toByteArray = bytes := by
    apply ByteArray.ext
    simp
  rw [decode?, hbytes]

theorem isSome_decode?_iff {bytes : ByteArray} :
    (decode? bytes.data.toList).isSome ↔ bytes.IsValidUTF8 := by
  rw [decode?_data, Option.isSome_map, String.fromUTF8?]
  split <;> simp [*]

/-- Bytes around a line feed are decoded on each side of it. -/
theorem decode?_append_feed (front back : List UInt8) :
    decode? (front ++ feedByte :: back) =
      (decode? front).bind fun start => (decode? back).map fun rest => start ++ '\n' :: rest := by
  ext cs
  simp only [decode?_eq_some_iff, encode_eq_append_feed_iff, Option.bind_eq_some_iff,
    Option.map_eq_some_iff]
  constructor
  · rintro ⟨start, rest, rfl, hstart, hrest⟩
    exact ⟨start, hstart, rest, hrest, rfl⟩
  · rintro ⟨start, hstart, rest, hrest, rfl⟩
    exact ⟨start, rest, rfl, hstart, hrest⟩

/-- Cutting the bytes first and decoding line by line gives the lines of the decoded bytes. -/
theorem decodeLines?_eq (bs : List UInt8) : decodeLines? bs = (decode? bs).map lines := by
  fun_induction decodeLines? bs with
  | case1 bs h =>
    have hnotMem : feedByte ∉ bs := by
      have hall := List.dropWhile_eq_nil_iff.mp h
      exact fun hmem => by simpa using hall _ hmem
    rcases hdecode : decode? bs with _ | cs
    · rfl
    · have hfeed : '\n' ∉ cs := by
        rwa [← feedByte_mem_encode, decode?_eq_some_iff.mp hdecode]
      simp [lines_of_notMem hfeed]
  | case2 bs b back h _ ih =>
    let front := bs.takeWhile (· ≠ feedByte)
    have hb : b = feedByte := by
      have hhead := List.head?_dropWhile_not (· ≠ feedByte) bs
      rw [h] at hhead
      simpa using hhead
    have hbs : bs = front ++ feedByte :: back := by
      rw [← hb, ← h, List.takeWhile_append_dropWhile]
    have hfront : feedByte ∉ front := fun hmem => by simpa using List.mem_takeWhile_imp hmem
    have hright : decode? bs =
        (decode? front).bind fun start => (decode? back).map fun rest => start ++ '\n' :: rest := by
      rw [hbs, decode?_append_feed]
    rw [hright, ih]
    rcases hstart : decode? front with _ | start
    · rfl
    have hfeed : '\n' ∉ start := by
      rwa [← feedByte_mem_encode, decode?_eq_some_iff.mp hstart]
    rcases decode? back with _ | rest
    · rfl
    · simp [lines_append_feed hfeed]

end Decoding

namespace WrittenText

/-- The text with a line in front of it. -/
def cons (l : WrittenLine) (t : WrittenText) : WrittenText := { t with ended := l :: t.ended }

@[simp] theorem chars_cons (l : WrittenLine) (t : WrittenText) :
    (cons l t).chars = l.chars ++ t.chars := by
  simp [chars, cons, List.append_assoc]

/-- A piece and the line feed behind it are a line with its end. A carriage return at the end of the
piece belongs to the line end. -/
theorem exists_line {piece : List Char} (h : '\n' ∉ piece) :
    ∃ l : WrittenLine, l.chars = piece ++ ['\n'] := by
  by_cases hreturn : piece.getLast? = some '\r'
  · obtain ⟨text, rfl⟩ := List.getLast?_eq_some_iff.mp hreturn
    refine ⟨⟨text, .returnFeed, ?_, by simp⟩, ?_⟩
    · exact fun hmem => h (List.mem_append_left _ hmem)
    · simp [WrittenLine.chars, LineEnd.text]
  · exact ⟨⟨piece, .feed, h, fun _ => hreturn⟩, rfl⟩

/-- Every text is one that was written line by line. -/
theorem exists_chars_eq (cs : List Char) : ∃ t : WrittenText, t.chars = cs := by
  induction hlength : cs.length using Nat.strong_induction_on generalizing cs with
  | _ n ih =>
    by_cases hfeed : '\n' ∈ cs
    · obtain ⟨piece, back, rfl, hpiece⟩ := List.eq_append_cons_of_mem hfeed
      obtain ⟨l, hl⟩ := exists_line hpiece
      have hback : back.length < n := by
        rw [← hlength, List.length_append, List.length_cons]
        omega
      obtain ⟨t, ht⟩ := ih back.length hback back rfl
      refine ⟨cons l t, ?_⟩
      rw [chars_cons, hl, ht, List.append_assoc, List.singleton_append]
    · exact ⟨⟨[], cs, hfeed⟩, by simp [chars]⟩

theorem count_feed_chars (t : WrittenText) : t.chars.count '\n' = t.ended.length := by
  obtain ⟨ended, rest, hrest⟩ := t
  have hline : ∀ l : WrittenLine, l.chars.count '\n' = 1 := by
    rintro ⟨text, ending, hfeed, -⟩
    cases ending <;> simp [WrittenLine.chars, LineEnd.text, List.count_eq_zero_of_not_mem hfeed]
  simp only [chars, List.count_append, List.count_eq_zero_of_not_mem hrest, List.count_flatMap]
  simp [Function.comp_def, hline, List.map_const']

/-- Something stands behind the last line end unless the text is empty or ends in a line feed. -/
theorem rest_eq_nil_iff (t : WrittenText) :
    t.rest = [] ↔ t.chars = [] ∨ t.chars.getLast? = some '\n' := by
  obtain ⟨ended, rest, hrest⟩ := t
  simp only [chars]
  refine ⟨?_, ?_⟩
  · rintro rfl
    rcases ended.eq_nil_or_concat with rfl | ⟨front, l, rfl⟩
    · exact .inl rfl
    · right
      cases hending : l.ending <;>
        simp [WrittenLine.chars, LineEnd.text, hending, List.getLast?_append]
  · rintro (h | h)
    · exact (List.append_eq_nil_iff.mp h).2
    · by_contra hne
      rw [List.getLast?_append, List.getLast?_eq_some_getLast hne, Option.some_or] at h
      exact hrest (Option.some.inj h ▸ List.getLast_mem hne)

end WrittenText

theorem feed_notMem_of_mem_lines {cs line : List Char} (h : line ∈ lines cs) : '\n' ∉ line := by
  obtain ⟨t, rfl⟩ := WrittenText.exists_chars_eq cs
  rw [t.lines_chars] at h
  exact t.feed_notMem_of_mem_lines h

/-- There is a line for each line feed, and one for what stands behind the last of them. -/
theorem length_lines (cs : List Char) :
    (lines cs).length = cs.count '\n' + if cs = [] ∨ cs.getLast? = some '\n' then 0 else 1 := by
  obtain ⟨t, rfl⟩ := WrittenText.exists_chars_eq cs
  simp only [t.lines_chars, t.count_feed_chars, ← t.rest_eq_nil_iff]
  by_cases hrest : t.rest = [] <;> simp [WrittenText.lines, hrest]

end TrialSummary.Text
