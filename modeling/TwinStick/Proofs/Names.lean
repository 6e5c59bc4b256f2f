import Mathlib.Data.List.TakeWhile
import TwinStick.Proofs.WordArithmetic

/-! Cutting a text into a name and reading it back: the longest run of whole characters that fits
is kept, and what is read is the text before the first zero. -/

namespace TwinStick

namespace ProfileName

/-- The text starts with these characters, they fit into a name, and no longer start does. -/
structure IsCut (kept text : List Char) : Prop where
  start : kept <+: text
  fits : size kept ≤ nameLength
  longest : ∀ cs, cs <+: text → size cs ≤ nameLength → cs <+: kept

theorem fitting_longest {cs text : List Char} (hstart : cs <+: text) {room : Nat}
    (hfits : size cs ≤ room) : cs <+: fitting room text := by
  induction text generalizing cs room with
  | nil => exact hstart
  | cons c text ih =>
    cases cs with
    | nil => exact List.nil_prefix
    | cons d cs =>
      obtain ⟨rfl, hrest⟩ := List.cons_prefix_cons.mp hstart
      rw [size_cons] at hfits
      rw [fitting, if_pos (by omega)]
      exact List.cons_prefix_cons.mpr ⟨rfl, ih hrest (by omega)⟩

theorem isCut_fitting (text : List Char) : IsCut (fitting nameLength text) text where
  start := fitting_prefix nameLength text
  fits := size_fitting nameLength text
  longest _ hstart := fitting_longest hstart

theorem fitting_of_size_le {text : List Char} {room : Nat} (h : size text ≤ room) :
    fitting room text = text := by
  have hstart := fitting_prefix room text
  have hwhole := fitting_longest List.prefix_rfl h
  exact hstart.eq_of_length_le hwhole.length_le

theorem isBoundary_of_cutBack {text : List Char} {n m : Nat}
    (h : cutBack text n = some m) : isBoundary text m = true := by
  induction n with
  | zero =>
    rw [cutBack_of_boundary (isBoundary_zero text)] at h
    obtain rfl := Option.some.inj h
    exact isBoundary_zero text
  | succ n ih =>
    cases hb : isBoundary text (n + 1) with
    | true =>
      rw [cutBack_of_boundary hb] at h
      obtain rfl := Option.some.inj h
      exact hb
    | false =>
      rw [cutBack_succ hb] at h
      exact ih h

/-- A character starts or the text ends where the library has a valid position. -/
theorem isBoundary_iff (text : String) (n : Nat) :
    isBoundary text.toList n = true ↔ (String.Pos.Raw.mk n).IsValid text := by
  rw [String.Pos.Raw.isValid_iff_exists_take_toList]
  have hsize : ∀ cs, (String.ofList cs).utf8ByteSize = size cs := by
    intro cs
    simp [String.utf8ByteSize, size, encode, List.utf8Encode]
  simp only [hsize]
  generalize text.toList = cs
  induction cs generalizing n with
  | nil => cases n <;> simp [isBoundary, size, encode]
  | cons c cs ih =>
    have hpos := c.utf8Size_pos
    constructor
    · intro h
      cases n with
      | zero => exact ⟨0, rfl⟩
      | succ n =>
        obtain ⟨hle, hrest⟩ := Bool.and_eq_true_iff.mp h
        obtain ⟨i, hi⟩ := (ih _).mp hrest
        refine ⟨i + 1, ?_⟩
        have hle := of_decide_eq_true hle
        simp only [List.take_succ_cons, size_cons] at hi ⊢
        omega
    · rintro ⟨i, hi⟩
      cases i with
      | zero =>
        obtain rfl : n = 0 := hi
        exact isBoundary_zero _
      | succ i =>
        obtain rfl : n = c.utf8Size + size (cs.take i) := by simpa [size_cons] using hi
        rw [isBoundary_add]
        exact (ih _).mpr ⟨i, rfl⟩

theorem encode_cons (c : Char) (rest : List Char) :
    encode (c :: rest) = String.utf8EncodeChar c ++ encode rest := rfl

theorem eq_of_zero_mem_utf8EncodeChar {c : Char} (h : 0 ∈ String.utf8EncodeChar c) :
    c = '\x00' := by
  have hbyte : ∀ k : Nat, 0 = UInt8.ofNat k → k % 256 = 0 := by
    intro k hk
    simpa using (congrArg UInt8.toNat hk).symm
  have hzero : c.val.toNat = 0 := by
    simp only [String.utf8EncodeChar] at h
    split_ifs at h <;> simp only [List.mem_cons, List.not_mem_nil, or_false] at h
    · have hlow := hbyte _ h
      omega
    -- in a longer encoding every byte has its top bit set
    · rcases h with h | h <;> have hhigh := hbyte _ h <;> omega
    · rcases h with h | h | h <;> have hhigh := hbyte _ h <;> omega
    · rcases h with h | h | h | h <;> have hhigh := hbyte _ h <;> omega
  exact Char.ext (UInt32.toNat_inj.mp hzero)

/-- No byte is zero but that of the zero character. -/
theorem takeWhile_encode (text : List Char) (count : Nat) :
    (encode text ++ List.replicate count 0).takeWhile (· != 0) =
      encode (text.takeWhile (· != '\x00')) := by
  induction text with
  | nil => simp [encode]
  | cons c rest ih =>
    rw [encode_cons, List.append_assoc]
    by_cases hc : c = '\x00'
    · rw [hc]
      rfl
    · have hpos : ∀ b ∈ String.utf8EncodeChar c, (b != 0) = true := by
        intro b hb
        refine bne_iff_ne.mpr ?_
        rintro rfl
        exact hc (eq_of_zero_mem_utf8EncodeChar hb)
      have hkeep : (c :: rest).takeWhile (· != '\x00') = c :: rest.takeWhile (· != '\x00') :=
        List.takeWhile_cons_of_pos (bne_iff_ne.mpr hc)
      rw [List.takeWhile_append_of_pos hpos, ih, hkeep, encode_cons]

theorem bytes_ofString (text : String) :
    (ofString text).bytes.toList = encode (fitting nameLength text.toList) ++
      List.replicate (nameLength - size (fitting nameLength text.toList)) 0 := by
  have hfits := size_fitting nameLength text.toList
  have hbyte : ∀ (i : Nat) (h : i < (ofString text).bytes.toList.length),
      (ofString text).bytes.toList[i] = (encode (fitting nameLength text.toList))[i]?.getD 0 := by
    intro i h
    simp [ofString_eq]
  refine List.ext_getElem ?_ fun i h₁ h₂ => (hbyte i h₁).trans ?_
  · simp only [Vector.length_toList, List.length_append, List.length_replicate, size] at hfits ⊢
    omega
  · rw [List.getElem_append]
    split
    · next h => rw [List.getElem?_eq_getElem h, Option.getD_some]
    · next h => rw [List.getElem?_eq_none (by omega), Option.getD_none, List.getElem_replicate]

theorem span_ofString (text : String) : (ofString text).span =
    encode ((fitting nameLength text.toList).takeWhile (· != '\x00')) := by
  rw [span, bytes_ofString, takeWhile_encode]

theorem text_of_span {n : ProfileName} {cs : List Char} (h : n.span = encode cs) :
    n.text = String.ofList cs := by
  have hbytes : (⟨n.span.toArray⟩ : ByteArray) = cs.utf8Encode := by
    refine ByteArray.ext ?_
    rw [h, List.utf8Encode, List.data_toByteArray]
    rfl
  have hvalid : (⟨n.span.toArray⟩ : ByteArray).IsValidUTF8 := ⟨cs, hbytes⟩
  rw [text, String.fromUTF8?, dif_pos hvalid, Option.getD_some]
  exact String.toByteArray_inj.mp (hbytes.trans String.toByteArray_ofList.symm)

theorem text_ofString (text : String) : (ofString text).text =
    String.ofList ((fitting nameLength text.toList).takeWhile (· != '\x00')) :=
  text_of_span (span_ofString text)

theorem length_span_le (n : ProfileName) : n.span.length ≤ nameLength := by
  have hstart : n.span <+: n.bytes.toList := List.takeWhile_prefix _
  calc n.span.length ≤ n.bytes.toList.length := hstart.length_le
    _ = nameLength := n.bytes.length_toList

theorem zero_notMem_span (n : ProfileName) : 0 ∉ n.span := by
  intro h
  simpa using List.mem_takeWhile_imp h

/-- The text that is read consists of the bytes before the first zero, or they are no text. -/
theorem text_cases (n : ProfileName) :
    (⟨n.span.toArray⟩ : ByteArray).IsValidUTF8 ∧ n.text.toByteArray = ⟨n.span.toArray⟩ ∨
      ¬ (⟨n.span.toArray⟩ : ByteArray).IsValidUTF8 ∧ n.text = "" := by
  by_cases hvalid : (⟨n.span.toArray⟩ : ByteArray).IsValidUTF8
  · refine .inl ⟨hvalid, ?_⟩
    rw [text, String.fromUTF8?, dif_pos hvalid, Option.getD_some]
    rfl
  · refine .inr ⟨hvalid, ?_⟩
    rw [text, String.fromUTF8?, dif_neg hvalid, Option.getD_none]

theorem utf8ByteSize_text_le (n : ProfileName) : n.text.utf8ByteSize ≤ nameLength := by
  obtain ⟨-, hbytes⟩ | ⟨-, htext⟩ := n.text_cases
  · rw [← String.size_toByteArray, hbytes]
    exact n.length_span_le
  · rw [htext]
    exact Nat.zero_le _

theorem text_eq_empty_iff (n : ProfileName) :
    n.text = "" ↔ n.span = [] ∨ ¬ (⟨n.span.toArray⟩ : ByteArray).IsValidUTF8 := by
  obtain ⟨hvalid, hbytes⟩ | ⟨hinvalid, htext⟩ := n.text_cases
  · rw [← String.toByteArray_inj, hbytes]
    have hnil : (⟨n.span.toArray⟩ : ByteArray) = "".toByteArray ↔ n.span = [] := by
      rw [ByteArray.ext_iff, ← Array.toList_inj]
      rfl
    rw [hnil, or_iff_left (not_not_intro hvalid)]
  · exact iff_of_true htext (.inr hinvalid)

/-- What has been read from a name is stored and read again as it is. -/
theorem text_ofString_text (n : ProfileName) : (ofString n.text).text = n.text := by
  obtain ⟨-, hbytes⟩ | ⟨-, htext⟩ := n.text_cases
  · have hspan : n.span = encode n.text.toList := by
      have hdata := congrArg (·.data.toList) hbytes
      rw [← String.utf8Encode_toList] at hdata
      simpa [List.utf8Encode, encode] using hdata.symm
    have hfits : size n.text.toList ≤ nameLength :=
      calc size n.text.toList = n.span.length := congrArg List.length hspan.symm
        _ ≤ nameLength := n.length_span_le
    have hzero : ∀ c ∈ n.text.toList, (c != '\x00') = true := by
      intro c hc
      refine bne_iff_ne.mpr ?_
      rintro rfl
      refine n.zero_notMem_span ?_
      rw [hspan]
      exact List.mem_flatMap.mpr ⟨_, hc, List.mem_cons_self⟩
    rw [text_ofString, fitting_of_size_le hfits, List.takeWhile_eq_self_iff.mpr hzero,
      String.ofList_toList]
  · rw [htext, text_ofString]
    rfl

end ProfileName

@[simp] theorem ProfileRecord.name_withName (r : ProfileRecord) (text : String) :
    (r.withName text).name = .ofString text := rfl

open ProfileName in
/-- Names are cut between characters. Going back from the limit ends at a valid position of the
text, the field holds what is before it and zeros, and reading gives it up to its first zero
character. What is read from any sixteen bytes at all is what is before their first zero, if that
is text. -/
theorem ProfileRecord.withName_cut :
    (∀ (r : ProfileRecord) (text : String), ∃ kept,
      IsCut kept text.toList ∧
        cutBack text.toList (min (size text.toList) nameLength) = some (size kept) ∧
        (String.Pos.Raw.mk (size kept)).IsValid text ∧
        (r.withName text).name.bytes.toList =
          encode kept ++ List.replicate (nameLength - size kept) 0 ∧
        (r.withName text).name.text = String.ofList (kept.takeWhile (· != '\x00')) ∧
        { r.withName text with name := r.name } = r) ∧
      ∀ (r : ProfileRecord),
        (r.withName r.name.text).name.text = r.name.text ∧
        (r.name.text = "" ∨ r.name.text.toByteArray = ⟨r.name.span.toArray⟩) ∧
        (r.name.text = "" ↔
          r.name.span = [] ∨ ¬ (⟨r.name.span.toArray⟩ : ByteArray).IsValidUTF8) := by
  refine ⟨fun r text => ?_, fun r => ?_⟩
  · have hback := cutBack_eq text.toList nameLength
    have hplace := (isBoundary_iff text _).mp (isBoundary_of_cutBack hback)
    have hrest : { r.withName text with name := r.name } = r := by
      rw [ProfileRecord.withName]
    simp only [name_withName]
    exact ⟨_, isCut_fitting text.toList, hback, hplace, bytes_ofString text, text_ofString text,
      hrest⟩
  · have hread : r.name.text = "" ∨ r.name.text.toByteArray = ⟨r.name.span.toArray⟩ := by
      obtain ⟨-, hbytes⟩ | ⟨-, htext⟩ := r.name.text_cases
      · exact .inr hbytes
      · exact .inl htext
    rw [name_withName]
    exact ⟨text_ofString_text r.name, hread, text_eq_empty_iff r.name⟩

/-- The name cut at the limit in the middle of a character loses the whole character. -/
example : (ProfileName.ofString "fifteen letters€").text = "fifteen letters" := by
  decide +kernel

end TwinStick
