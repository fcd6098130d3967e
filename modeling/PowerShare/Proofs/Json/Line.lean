import PowerShare.Proofs.Json.Text
import PowerShare.Proofs.Json.Tokens

/-!
# A compact text is one line

Texts inside a document may hold any characters, but control characters among them are written as
escapes. So nothing in a compact text ends a line, whatever the document says:

* `Document.isScalar_of_mem_leaves` -- the leaves of a document have no parts;
* `Document.forall_mem_compact` -- a character of a compact text is a mark or stands in the text of
  a leaf;
* `Document.le_toNat_of_mem_compact` -- **no character of a compact text is a control character**;
* `Document.lineEnd_not_mem_compact` -- and none of its bytes ends a line.
-/

namespace PowerShare.Json

/-- The byte that ends a line. -/
def lineEnd : UInt8 := byte '\n'

/-! ## 1. Bytes -/

/-- A text without control characters has no bytes of control characters. -/
theorem le_toNat_of_mem_utf8 {text : List Char} (h : ∀ c ∈ text, 32 ≤ c.toNat) {b : UInt8}
    (hb : b ∈ utf8 text) : 32 ≤ b.toNat := by
  obtain ⟨c, hc, hb⟩ := List.mem_flatMap.1 hb
  by_cases hascii : c.toNat ≤ 127
  · rw [utf8EncodeChar_of_le hascii, List.mem_singleton] at hb
    have hnat : b.toNat = c.toNat := by
      rw [hb, byte, UInt8.toNat_ofNat']
      omega
    exact hnat ▸ h c hc
  · have hlarge : 128 ≤ b.toNat := le_toNat_of_mem_utf8EncodeChar (Nat.lt_of_not_le hascii) hb
    omega

theorem lineEnd_not_mem_utf8 {text : List Char} (h : ∀ c ∈ text, 32 ≤ c.toNat) :
    lineEnd ∉ utf8 text :=
  fun hb => absurd (le_toNat_of_mem_utf8 h hb) (by decide)

/-! ## 2. Characters of scalars -/

/-- For a text that is given, it can be computed that it has no control characters. -/
theorem le_toNat_of_mem (text : List Char) (htext : text.all (32 ≤ ·.toNat) = true) {c : Char}
    (h : c ∈ text) : 32 ≤ c.toNat :=
  List.all_iff_forall_prop.1 htext c h

theorem IsNumeric.le_toNat {c : Char} (h : IsNumeric c) : 32 ≤ c.toNat := by
  rcases h with hdigit | hmem
  · obtain ⟨hlow, -⟩ := Bool.and_eq_true_iff.1 hdigit
    have hzero : 48 ≤ c.toNat := UInt32.le_iff_toNat_le.1 (of_decide_eq_true hlow)
    omega
  · exact le_toNat_of_mem _ (by decide) hmem

/-- Control characters are written as escapes. -/
theorem le_toNat_of_mem_quotedChar {c d : Char} (h : d ∈ quotedChar c) : 32 ≤ d.toNat := by
  have hdigits : ∀ n < 16, 32 ≤ (hexDigit n).toNat := by decide
  unfold quotedChar at h
  split at h
  iterate 7 exact le_toNat_of_mem _ (by decide) h
  split at h
  · rename_i hcontrol
    simp only [List.mem_cons, List.not_mem_nil, or_false] at h
    rcases h with rfl | rfl | rfl | rfl | rfl | rfl
    iterate 4 decide
    · exact hdigits _ (by omega)
    · exact hdigits _ (by omega)
  · rename_i hcontrol
    rw [List.mem_singleton.1 h]
    omega

theorem le_toNat_of_mem_quoted {s : String} {c : Char} (h : c ∈ quoted s) : 32 ≤ c.toNat := by
  unfold quoted at h
  rw [List.mem_append, List.mem_cons, List.mem_singleton] at h
  rcases h with (rfl | h) | rfl
  · decide
  · obtain ⟨e, -, h⟩ := List.mem_flatMap.1 h
    exact le_toNat_of_mem_quotedChar h
  · decide

theorem le_toNat_of_mem_numberText {x : Binary64} {c : Char} (h : c ∈ numberText x) :
    32 ≤ c.toNat := by
  cases hx : x.isFinite with
  | true => exact (isNumeric_of_mem_numberText hx h).le_toNat
  | false =>
    unfold numberText at h
    rw [hx] at h
    exact le_toNat_of_mem "null".toList (by decide) h

namespace Document

/-! ## 3. Documents -/

/-- A document without parts. -/
def IsScalar : Document → Prop
  | null | boolean _ | integer _ | number _ | text _ => True
  | list _ | object _ => False

mutual

/-- **The leaves of a document have no parts.** -/
theorem isScalar_of_mem_leaves : ∀ {d leaf : Document}, leaf ∈ d.leaves → leaf.IsScalar
  | null, _, h | boolean _, _, h | integer _, _, h | number _, _, h | text _, _, h => by
    rw [List.mem_singleton.1 h]
    trivial
  | list _, _, h => isScalar_of_mem_itemLeaves h
  | object _, _, h => isScalar_of_mem_memberLeaves h

theorem isScalar_of_mem_itemLeaves : ∀ {items : List Document} {leaf : Document},
    leaf ∈ itemLeaves items → leaf.IsScalar
  | item :: rest, _, h => by
    unfold itemLeaves at h
    rcases List.mem_append.1 h with h | h
    · exact isScalar_of_mem_leaves h
    · exact isScalar_of_mem_itemLeaves h

theorem isScalar_of_mem_memberLeaves : ∀ {members : List (String × Document)} {leaf : Document},
    leaf ∈ memberLeaves members → leaf.IsScalar
  | (name, value) :: rest, _, h => by
    unfold memberLeaves at h
    rw [List.mem_append, List.mem_cons] at h
    rcases h with (rfl | h) | h
    · trivial
    · exact isScalar_of_mem_leaves h
    · exact isScalar_of_mem_memberLeaves h

end

/-- **What holds of the marks and of the texts of leaves holds of a compact text,** character by
character. -/
theorem forall_mem_compact {P : Char → Prop} {d : Document} (hmarks : ∀ c ∈ marks, P c)
    (hleaves : ∀ leaf ∈ d.leaves, ∀ c ∈ leaf.compact, P c) : ∀ c ∈ d.compact, P c := by
  intro c hc
  rw [← flatten_tokens] at hc
  obtain ⟨t, ht, hc⟩ := List.mem_flatten.1 hc
  rcases mem_tokens ht with ⟨mark, hmark, rfl⟩ | ⟨leaf, hleaf, rfl⟩
  · rw [List.mem_singleton.1 hc]
    exact hmarks mark hmark
  · exact hleaves leaf hleaf c hc

/-- **No character of a compact text is a control character,** whatever the document says. -/
theorem le_toNat_of_mem_compact {d : Document} : ∀ c ∈ d.compact, 32 ≤ c.toNat := by
  refine forall_mem_compact (fun c hc => le_toNat_of_mem _ (by decide) hc) fun leaf hleaf c hc => ?_
  have hscalar := isScalar_of_mem_leaves hleaf
  cases leaf with
  | null => exact le_toNat_of_mem Document.null.compact (by decide) hc
  | boolean b =>
    cases b with
    | true => exact le_toNat_of_mem (boolean true).compact (by decide) hc
    | false => exact le_toNat_of_mem (boolean false).compact (by decide) hc
  | integer i => exact (isNumeric_of_mem_integerText hc).le_toNat
  | number x => exact le_toNat_of_mem_numberText hc
  | text s => exact le_toNat_of_mem_quoted hc
  | list _ | object _ => exact hscalar.elim

/-- **A compact text is one line.** -/
theorem lineEnd_not_mem_compact (d : Document) : lineEnd ∉ utf8 d.compact :=
  lineEnd_not_mem_utf8 le_toNat_of_mem_compact

/-- A text with a line end in it is still written on one line. -/
example : lineEnd ∉ utf8 (Document.list [text "a\nb", null]).compact := by decide

end Document

end PowerShare.Json
