import ScenarioRunner.Files.FileTree
import ScenarioRunner.Proofs.Text.Lines

/-!
# URIs of paths

A resolved path is read back from its text, and a text from its percent-encoded bytes. Main statement: two resolved paths
of one URI are one path.
-/

namespace ScenarioRunner.Files

open ScenarioRunner.Text

set_option autoImplicit false

/-! ## Bytes -/

theorem byteArray_toList_loop (bytes : ByteArray) (i : Nat) (done : List UInt8) :
    ByteArray.toList.loop bytes i done = done.reverse ++ bytes.data.toList.drop i := by
  induction i, done using ByteArray.toList.loop.induct bytes with
  | case1 i done hLess ih =>
    have hLength : i < bytes.data.toList.length := by simpa using hLess
    have hByte : bytes.get! i = bytes.data.toList[i] := by
      rw [Array.getElem_toList]
      exact getElem!_pos bytes.data i (by simpa using hLess)
    rw [ByteArray.toList.loop, if_pos hLess, ih, List.drop_eq_getElem_cons hLength, hByte, List.reverse_cons,
      List.append_assoc, List.singleton_append]
  | case2 i done hEnd =>
    have hLength : bytes.data.toList.length ≤ i := by simpa using hEnd
    rw [ByteArray.toList.loop, if_neg hEnd, List.drop_eq_nil_of_le hLength, List.append_nil]

theorem encodeUtf8_inj {s t : String} (h : encodeUtf8 s = encodeUtf8 t) : s = t := by
  simp only [encodeUtf8, ByteArray.toList, byteArray_toList_loop, List.reverse_nil, List.nil_append, List.drop_zero,
    Array.toList_inj] at h
  exact String.toByteArray_inj.mp (ByteArray.ext h)

theorem upperHexDigit_inj {m n : Nat} (hm : m < 16) (hn : n < 16) (h : upperHexDigit m = upperHexDigit n) : m = n := by
  have hAll : ∀ m < 16, ∀ n < 16, upperHexDigit m = upperHexDigit n → m = n := by decide
  exact hAll m hm n hn h

theorem byte_inj_of_isUriChar {a b : UInt8} (ha : isUriChar a = true) (hb : isUriChar b = true)
    (h : Char.ofNat a.toNat = Char.ofNat b.toNat) : a = b := by
  have hAscii : ∀ n < 128, (Char.ofNat n).toNat = n := by decide
  have hToNat : ∀ byte : UInt8, isUriChar byte = true → (Char.ofNat byte.toNat).toNat = byte.toNat := by
    intro byte hByte
    rw [isUriChar, Bool.and_eq_true, decide_eq_true_eq] at hByte
    exact hAscii byte.toNat hByte.1
  rw [← UInt8.toNat_inj, ← hToNat a ha, ← hToNat b hb, h]

/-- No byte is written as a percent sign alone. -/
theorem ofNat_ne_percent {byte : UInt8} (h : isUriChar byte = true) : Char.ofNat byte.toNat ≠ '%' := by
  intro hPercent
  rw [isUriChar, hPercent, Bool.and_eq_true] at h
  exact absurd h.2 (by decide)

/-- The first byte is read back from the code, whatever follows. -/
theorem percentEncode_append_inj {a b : UInt8} {s t : List Char} (h : percentEncode a ++ s = percentEncode b ++ t) :
    a = b ∧ s = t := by
  rw [percentEncode, percentEncode] at h
  split at h
  · next ha =>
    split at h
    · next hb =>
      obtain ⟨hHead, hTail⟩ := List.cons.inj h
      exact ⟨byte_inj_of_isUriChar ha hb hHead, hTail⟩
    · exact absurd (List.cons.inj h).1 (ofNat_ne_percent ha)
  · split at h
    · next hb => exact absurd (List.cons.inj h).1.symm (ofNat_ne_percent hb)
    · obtain ⟨-, h⟩ := List.cons.inj h
      obtain ⟨hHigh, h⟩ := List.cons.inj h
      obtain ⟨hLow, hTail⟩ := List.cons.inj h
      have ha := a.toNat_lt
      have hb := b.toNat_lt
      have hHigh := upperHexDigit_inj (by omega) (by omega) hHigh
      have hLow := upperHexDigit_inj (by omega) (by omega) hLow
      refine ⟨UInt8.toNat_inj.mp ?_, hTail⟩
      omega

theorem flatMap_percentEncode_inj {a b : List UInt8} (h : a.flatMap percentEncode = b.flatMap percentEncode) : a = b := by
  have hNil : ∀ (byte : UInt8) (bytes : List UInt8), (byte :: bytes).flatMap percentEncode ≠ [] := by
    intro byte bytes
    rw [List.flatMap_cons, percentEncode]
    split <;> simp
  induction a generalizing b with
  | nil =>
    cases b with
    | nil => rfl
    | cons byte bytes => exact absurd h.symm (hNil byte bytes)
  | cons byte bytes ih =>
    cases b with
    | nil => exact absurd h (hNil byte bytes)
    | cons other others =>
      rw [List.flatMap_cons, List.flatMap_cons] at h
      obtain ⟨rfl, hRest⟩ := percentEncode_append_inj h
      rw [ih hRest]

/-! ## Texts -/

/-- What stands between two slashes of a path, once the path has been read. -/
structure IsComponent (name : String) : Prop where
  ne_empty : name ≠ ""
  ne_dot : name ≠ "."
  slash_notMem : '/' ∉ name.toList

structure IsName (name : String) : Prop extends IsComponent name where
  ne_up : name ≠ ".."
  null_notMem : '\x00' ∉ name.toList
  size_le : name.utf8ByteSize ≤ nameLimit

theorem isName_iff {name : String} :
    IsName name ↔ (name ≠ "" ∧ name ≠ "." ∧ '/' ∉ name.toList) ∧ name ≠ ".." ∧ '\x00' ∉ name.toList ∧
      name.utf8ByteSize ≤ nameLimit :=
  ⟨fun ⟨⟨hEmpty, hDot, hSlash⟩, hUp, hNull, hSize⟩ => ⟨⟨hEmpty, hDot, hSlash⟩, hUp, hNull, hSize⟩,
    fun ⟨⟨hEmpty, hDot, hSlash⟩, hUp, hNull, hSize⟩ => ⟨⟨hEmpty, hDot, hSlash⟩, hUp, hNull, hSize⟩⟩

instance (name : String) : Decidable (IsName name) :=
  decidable_of_iff' _ isName_iff

theorem isComponent_of_mem_ofText {text name : String} (h : name ∈ (Path.ofText text).names) : IsComponent name := by
  obtain ⟨hName, hKept⟩ := List.mem_filter.mp h
  obtain ⟨piece, hPiece, rfl⟩ := List.mem_map.mp hName
  rw [Bool.and_eq_true, bne_iff_ne, bne_iff_ne] at hKept
  refine ⟨hKept.1, hKept.2, ?_⟩
  rw [String.toList_ofList]
  exact (of_mem_pieces hPiece).1

/-- Components that are written with slashes between them are read back. -/
theorem components_intercalate {names : List String} (h : ∀ name ∈ names, IsComponent name) :
    ((pieces '/' (['/'].intercalate (names.map String.toList))).map String.ofList).filter
      (fun name => name != "" && name != ".") = names := by
  have hKept : names.filter (fun name => name != "" && name != ".") = names := by
    rw [List.filter_eq_self]
    intro name hName
    obtain ⟨hEmpty, hDot, -⟩ := h name hName
    simp [hEmpty, hDot]
  cases names with
  | nil => rfl
  | cons name names =>
    rw [pieces_intercalate (by simp)]
    · simpa [List.map_map, Function.comp_def] using hKept
    · intro line hLine
      obtain ⟨name, hName, rfl⟩ := List.mem_map.mp hLine
      exact (h name hName).slash_notMem

/-- A path with names is read back from its text, if it is absolute or not. -/
theorem Path.names_ofText_text {p : Path} (hRoot : p.root = "" ∨ p.root = "/") (h : ∀ name ∈ p.names, IsComponent name) :
    (Path.ofText p.text).names = p.names := by
  obtain ⟨root, names⟩ := p
  rcases hRoot with rfl | rfl
  · cases names with
    | nil => rfl
    | cons name names =>
      have hText : (Path.text ⟨"", name :: names⟩).toList = ['/'].intercalate ((name :: names).map String.toList) := by
        simp [Path.text, String.toList_intercalate]
      rw [Path.ofText, hText]
      exact components_intercalate h
  · have hText : (Path.text ⟨"/", names⟩).toList = '/' :: ['/'].intercalate (names.map String.toList) := by
      simp [Path.text, String.toList_append, String.toList_intercalate]
    rw [Path.ofText, hText, pieces_cons, if_pos rfl]
    exact components_intercalate h

structure Path.IsResolved (p : Path) : Prop where
  root : p.root = "/"
  isName : ∀ name ∈ p.names, IsName name

theorem Path.IsResolved.eq_of_uri_eq {p q : Path} (hp : p.IsResolved) (hq : q.IsResolved) (h : p.uri = q.uri) : p = q := by
  have hRead : ∀ {p : Path}, p.IsResolved → (Path.ofText p.text).names = p.names := fun hp =>
    Path.names_ofText_text (.inr hp.root) fun name hName => (hp.isName name hName).toIsComponent
  rw [Path.uri, Path.uri, String.append_right_inj, String.ofList_inj] at h
  have hText : p.text = q.text := encodeUtf8_inj (flatMap_percentEncode_inj h)
  have hNames : p.names = q.names := by
    rw [← hRead hp, hText, hRead hq]
  have hRoot : p.root = q.root := hp.root.trans hq.root.symm
  cases p
  cases q
  cases hNames
  cases hRoot
  rfl

end ScenarioRunner.Files
