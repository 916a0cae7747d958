import Mathlib.Data.List.Basic
import DiskUsage.Path.Lemmas
import DiskUsage.Path.Raw
import DiskUsage.Proofs.Text.Utf8

/-!
# Letters for bytes

The letters of a path stand for its bytes, one for each.  Those of a text are the letters of its characters,
and as only the slash and the dot have a slash and a dot among theirs, the letters of a text are cut into
pieces where the text is.

* `displayLetters_encode`: letters of a text are shown as this text.
* `pieces_flatMap`: where letters are cut, if no character but the slash has a slash among its own.
* `components_text`, `sameAs_text`: a text says in letters what it says.
* `letters_ofBytes`: the letters of the path of some bytes.
-/

namespace DiskUsage

open Text.Utf8

namespace Path

variable {cs u w : List Char} {ws : List (List Char)}

/-- What has no slash in it only makes the first piece longer. -/
theorem pieces_append_of_not_mem (hu : '/' ∉ u) (h : pieces cs = w :: ws) :
    pieces (u ++ cs) = (u ++ w) :: ws := by
  induction u with
  | nil => exact h
  | cons c u ih =>
    have hc : c ≠ '/' := fun e => hu (e ▸ List.mem_cons_self)
    have hmore := ih fun hmem => hu (List.mem_cons_of_mem _ hmem)
    rw [List.cons_append, pieces, if_neg hc, hmore]
    rfl

/-- **Letters are cut** where the characters are that they stand for. -/
theorem pieces_flatMap {letters : Char → List Char} (hslash : letters '/' = ['/'])
    (hother : ∀ c, c ≠ '/' → '/' ∉ letters c) (cs : List Char) :
    pieces (cs.flatMap letters) = (pieces cs).map (List.flatMap letters) := by
  induction cs with
  | nil => rfl
  | cons c cs ih =>
    rw [List.flatMap_cons]
    by_cases hc : c = '/'
    · rw [hc, hslash, List.singleton_append, pieces_slash_cons, pieces_slash_cons, ih]
      rfl
    · obtain ⟨w, ws, h⟩ := List.exists_cons_of_ne_nil (pieces_ne_nil cs)
      have hpieces : pieces (c :: cs) = (c :: w) :: ws := by rw [pieces, if_neg hc, h]
      rw [h, List.map_cons] at ih
      rw [hpieces, pieces_append_of_not_mem (hother c hc) ih]
      rfl

end Path

namespace RawPath

variable {bytes more : List UInt8} {letters : String}

/-! ### Letters -/

/-- The letters of the bytes of a character. -/
def charLetters (c : Char) : List Char :=
  (String.utf8EncodeChar c).map fun b => Char.ofNat b.toNat

theorem toNat_ofNat_byte (b : UInt8) : (Char.ofNat b.toNat).toNat = b.toNat := by
  have hvalid : b.toNat.isValidChar := .inl (Nat.lt_of_lt_of_le b.toNat_lt (by decide))
  rw [Char.ofNat, dif_pos hvalid]
  rfl

theorem lettersOf_append (bytes more : List UInt8) :
    lettersOf (bytes ++ more) = lettersOf bytes ++ lettersOf more := by
  simp [lettersOf, String.ofList_append]

theorem toList_lettersOf_encode (text : String) :
    (lettersOf (encode text)).toList = text.toList.flatMap charLetters := by
  rw [lettersOf, encode, String.toList_ofList, List.map_flatMap]
  rfl

/-- Letters that stand for a text are shown as this text. -/
theorem displayLetters_lettersOf (bytes : List UInt8) :
    displayLetters (lettersOf bytes) = decode (bytes.map UInt8.toNat) := by
  rw [displayLetters, lettersOf, String.toList_ofList, List.map_map]
  exact congrArg decode (List.map_congr_left fun b _ => toNat_ofNat_byte b)

theorem displayLetters_encode (text : String) : displayLetters (lettersOf (encode text)) = text := by
  rw [displayLetters_lettersOf, decode_encode]

theorem flatMap_charLetters_injective : Function.Injective (List.flatMap charLetters) := by
  intro v w h
  have hletters : lettersOf (encode (String.ofList v)) = lettersOf (encode (String.ofList w)) := by
    rw [← String.toList_inj, toList_lettersOf_encode, toList_lettersOf_encode, String.toList_ofList,
      String.toList_ofList, h]
  rw [← String.ofList_inj, ← displayLetters_encode (String.ofList v), hletters, displayLetters_encode]

/-- A letter for a byte below 128 is shown as it is. -/
theorem displayLetters_cons {c : Char} (hc : c.toNat < 0x80) (cs : List Char) :
    displayLetters (String.ofList (c :: cs)) = String.ofList [c] ++ displayLetters (String.ofList cs) := by
  rw [displayLetters, String.toList_ofList, List.map_cons, decode_cons_of_lt hc, Char.ofNat_toNat,
    displayLetters, String.toList_ofList]

/-! ### Letters of characters -/

/-- A letter for a byte below 128 stands for itself alone. -/
theorem eq_of_mem_charLetters {c letter : Char} (hmem : letter ∈ charLetters c)
    (hlt : letter.toNat < 0x80) : letter = c := by
  obtain ⟨b, hb, rfl⟩ := List.mem_map.1 hmem
  rw [toNat_ofNat_byte] at hlt
  have hc : Char.ofNat c.toNat = c := Char.ofNat_toNat c
  have hn : c.val.toNat = c.toNat := rfl
  unfold String.utf8EncodeChar at hb
  rw [hn] at hb
  dsimp only at hb
  generalize c.toNat = n at hc hb
  split at hb
  · cases List.mem_singleton.1 hb
    rw [UInt8.toNat_ofNat', Nat.mod_eq_of_lt (by omega), hc]
  · -- all bytes of a longer character are at least 128
    exfalso
    split at hb
    · simp only [List.mem_cons, List.not_mem_nil, or_false] at hb
      rcases hb with rfl | rfl <;> simp at hlt <;> omega
    · split at hb
      · simp only [List.mem_cons, List.not_mem_nil, or_false] at hb
        rcases hb with rfl | rfl | rfl <;> simp at hlt <;> omega
      · simp only [List.mem_cons, List.not_mem_nil, or_false] at hb
        rcases hb with rfl | rfl | rfl | rfl <;> simp at hlt <;> omega

theorem pieces_lettersOf_encode (text : String) :
    Path.pieces (lettersOf (encode text)).toList
      = (Path.pieces text.toList).map (List.flatMap charLetters) := by
  rw [toList_lettersOf_encode]
  refine Path.pieces_flatMap (by decide) (fun c hc hmem => hc ?_) text.toList
  exact (eq_of_mem_charLetters hmem (by decide)).symm

/-! ### Paths that are texts -/

/-- A component in letters. -/
def letterComponent : Path.Component → Path.Component
  | .normal name => .normal (lettersOf (encode name))
  | c => c

theorem letterComponent_injective : Function.Injective letterComponent := by
  intro c d h
  cases c <;> cases d <;> simp only [letterComponent, reduceCtorEq, Path.Component.normal.injEq] at h ⊢
  next name other => rw [← displayLetters_encode name, h, displayLetters_encode]

theorem component?_flatMap (leading : Bool) (w : List Char) :
    Path.component? leading (w.flatMap charLetters) = (Path.component? leading w).map letterComponent := by
  have hiff {v : List Char} (hv : v.flatMap charLetters = v) : w.flatMap charLetters = v ↔ w = v :=
    ⟨fun h => flatMap_charLetters_injective (h.trans hv.symm), fun h => h ▸ hv⟩
  have hnil : w.flatMap charLetters = [] ↔ w = [] := hiff rfl
  have hdot : w.flatMap charLetters = ['.'] ↔ w = ['.'] := hiff (by decide)
  have hdots : w.flatMap charLetters = ['.', '.'] ↔ w = ['.', '.'] := hiff (by decide)
  have hname : String.ofList (w.flatMap charLetters) = lettersOf (encode (String.ofList w)) := by
    rw [← String.toList_inj, toList_lettersOf_encode, String.toList_ofList, String.toList_ofList]
  simp only [Path.component?, hnil, hdot, hdots, hname]
  repeat' split
  all_goals rfl

theorem isAbsolute_text (p : Path) : (text p).isAbsolute = p.isAbsolute := by
  rw [isAbsolute, Path.isAbsolute, Path.isAbsolute, letters, Path.chars, Path.chars, bytes,
    toList_lettersOf_encode]
  cases p.text.toList with
  | nil => rfl
  | cons c cs =>
    rw [List.flatMap_cons, List.head?_cons]
    by_cases hc : c = '/'
    · rw [hc]
      rfl
    · obtain ⟨letter, more, hletters⟩ : ∃ letter more, charLetters c = letter :: more := by
        refine List.exists_cons_of_ne_nil fun h => ?_
        exact String.utf8EncodeChar_ne_nil (List.map_eq_nil_iff.1 h)
      have hletter : letter ≠ '/' := by
        rintro rfl
        exact hc (eq_of_mem_charLetters (hletters ▸ List.mem_cons_self) (by decide)).symm
      rw [hletters, List.cons_append, List.head?_cons]
      rw [Option.some_beq_some, Option.some_beq_some, beq_false_of_ne hletter, beq_false_of_ne hc]

/-- A text says in letters what it says. -/
theorem components_text (p : Path) : (text p).components = p.components.map letterComponent := by
  obtain ⟨w, ws, h⟩ := List.exists_cons_of_ne_nil (Path.pieces_ne_nil p.chars)
  have hletters : Path.pieces (text p).letters.chars
      = w.flatMap charLetters :: ws.map (List.flatMap charLetters) := by
    rw [letters, Path.chars, bytes, pieces_lettersOf_encode, ← Path.chars, h, List.map_cons]
  have hroot : (text p).letters.isAbsolute = p.isAbsolute := isAbsolute_text p
  have hrest : (ws.map (List.flatMap charLetters)).filterMap (Path.component? false)
      = (ws.filterMap (Path.component? false)).map letterComponent := by
    rw [List.filterMap_map, List.map_filterMap]
    exact congrArg (List.filterMap · ws) (funext (component?_flatMap false))
  rw [components, Path.components_eq hletters, Path.components_eq h, hroot, component?_flatMap, hrest,
    List.map_append, List.map_append]
  cases p.isAbsolute <;> cases Path.component? true w <;> rfl

/-- Two texts are the same path iff their letters are. -/
theorem sameAs_text (p q : Path) : (text p).sameAs (text q) = p.sameAs q := by
  rw [Bool.eq_iff_iff, sameAs, Path.sameAs_iff, Path.sameAs_iff]
  change (text p).components = (text q).components ↔ _
  rw [components_text, components_text]
  exact letterComponent_injective.list_map.eq_iff

/-! ### Paths of bytes -/

theorem toByteArray_encode (text : String) : (encode text).toByteArray = text.toByteArray :=
  String.utf8Encode_toList

theorem bytes_ofBytes (bytes : List UInt8) : (ofBytes bytes).bytes = bytes := by
  unfold ofBytes
  split
  · next h =>
    have hdata := congrArg ByteArray.data (toByteArray_encode (String.fromUTF8 bytes.toByteArray h))
    rw [List.data_toByteArray] at hdata
    exact List.toArray_inj (hdata.trans List.data_toByteArray)
  · rfl

theorem letters_ofBytes (bytes : List UInt8) : (ofBytes bytes).letters = ⟨lettersOf bytes⟩ := by
  rw [letters, bytes_ofBytes]

end RawPath

end DiskUsage
