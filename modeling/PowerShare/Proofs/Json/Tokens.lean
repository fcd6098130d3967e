import Mathlib.Data.Bool.AllAny
import Mathlib.Data.List.Chain
import Mathlib.Data.List.Infix
import PowerShare.Json.Document
import PowerShare.Proofs.Number.Digits

/-!
# The tokens of a JSON text

A document is written as a row of tokens, and the two ways of writing it differ in the blanks and
line ends between them:

* `Document.tokens` -- the tokens of a document in order;
* `Spaced` -- a text made of tokens and of blanks and line ends around them;
* `flatten_tokens` -- the compact text has nothing between the tokens; `spaced_compact` and
  `spaced_pretty` -- so both texts of a document are made of its tokens;
* `Document.leaves` -- the documents without parts inside a document, the names of members among
  them; a token is a mark or the text of a leaf (`mem_tokens`);
* `Document.null_isInfix_iff` -- where the texts of a document do not spell it themselves, `null`
  stands in its text for the numbers that are not finite.
-/

namespace PowerShare.Json

namespace Document

/-! ## 1. Tokens -/

mutual

/-- The tokens of the document's text. -/
def tokens : Document → List (List Char)
  | null => ["null".toList]
  | boolean b => [booleanText b]
  | integer i => [integerText i]
  | number x => [numberText x]
  | text s => [quoted s]
  | list items => ['['] :: itemTokens items ++ [[']']]
  | object members => ['\x7b'] :: memberTokens members ++ [['\x7d']]

/-- The tokens of items and of the commas between them. -/
def itemTokens : List Document → List (List Char)
  | [] => []
  | [item] => item.tokens
  | item :: rest => item.tokens ++ [','] :: itemTokens rest

/-- The tokens of members and of the commas between them. -/
def memberTokens : List (String × Document) → List (List Char)
  | [] => []
  | [(name, value)] => quoted name :: [':'] :: value.tokens
  | (name, value) :: rest => quoted name :: [':'] :: value.tokens ++ [','] :: memberTokens rest

end

end Document

/-! ## 2. Texts made of tokens -/

/-- A text made of tokens in order, with any blanks and line ends around them. -/
inductive Spaced : List (List Char) → List Char → Prop where
  | nil : Spaced [] []
  | token {tokens : List (List Char)} {text : List Char} (t : List Char) :
      Spaced tokens text → Spaced (t :: tokens) (t ++ text)
  | blank {tokens : List (List Char)} {text : List Char} {c : Char} (h : c = ' ' ∨ c = '\n') :
      Spaced tokens text → Spaced tokens (c :: text)

namespace Spaced

variable {a b : List (List Char)} {x y : List Char}

theorem append (hx : Spaced a x) (hy : Spaced b y) : Spaced (a ++ b) (x ++ y) := by
  induction hx with
  | nil => exact hy
  | token t _ ih =>
    rw [List.cons_append, List.append_assoc]
    exact .token t ih
  | blank h _ ih => exact .blank h ih

theorem single (t : List Char) : Spaced [t] t := by
  have h := Spaced.token t .nil
  rwa [List.append_nil] at h

/-- A token of one character. -/
theorem mark (c : Char) (hy : Spaced b y) : Spaced ([c] :: b) (c :: y) := .token [c] hy

/-- Tokens with nothing between them. -/
theorem flatten : ∀ tokens : List (List Char), Spaced tokens tokens.flatten
  | [] => .nil
  | t :: tokens => .token t (flatten tokens)

theorem lineBreak (depth : Nat) : Spaced [] (Document.lineBreak depth) := by
  have hblanks (n : Nat) : Spaced [] (List.replicate n ' ') := by
    induction n with
    | zero => exact .nil
    | succ n ih => exact .blank (.inl rfl) ih
  exact .blank (.inr rfl) (hblanks _)

end Spaced

namespace Document

/-! ## 3. Both texts of a document -/

mutual

/-- The compact text is the tokens and nothing else. -/
theorem flatten_tokens : ∀ d : Document, d.tokens.flatten = d.compact
  | null | boolean _ | integer _ | number _ | text _ => List.append_nil _
  | list items => by
    unfold tokens compact
    rw [← flatten_itemTokens items]
    simp
  | object members => by
    unfold tokens compact
    rw [← flatten_memberTokens members]
    simp

theorem flatten_itemTokens :
    ∀ items : List Document, (itemTokens items).flatten = compactItems items
  | [] => rfl
  | [item] => flatten_tokens item
  | item :: next :: rest => by
    unfold itemTokens compactItems
    rw [← flatten_tokens item, ← flatten_itemTokens (next :: rest)]
    simp

theorem flatten_memberTokens :
    ∀ members : List (String × Document), (memberTokens members).flatten = compactMembers members
  | [] => rfl
  | [(name, value)] => by
    unfold memberTokens compactMembers
    rw [← flatten_tokens value]
    simp
  | (name, value) :: next :: rest => by
    unfold memberTokens compactMembers
    rw [← flatten_tokens value, ← flatten_memberTokens (next :: rest)]
    simp

end

theorem spaced_compact (d : Document) : Spaced d.tokens d.compact :=
  d.flatten_tokens ▸ .flatten d.tokens

mutual

theorem spaced_prettyAt (depth : Nat) : ∀ d : Document, Spaced d.tokens (d.prettyAt depth)
  | null => .single _
  | boolean _ => .single _
  | integer _ => .single _
  | number _ => .single _
  | text _ => .single _
  | list [] => .mark '[' (.single [']'])
  | list (item :: rest) => by
    unfold tokens prettyAt
    have hitems := spaced_prettyItems (depth + 1) (item :: rest)
    have hend := (Spaced.lineBreak depth).append (.single [']'])
    have h := Spaced.mark '[' (hitems.append hend)
    simpa using h
  | object [] => .mark '\x7b' (.single ['\x7d'])
  | object (member :: rest) => by
    unfold tokens prettyAt
    have hmembers := spaced_prettyMembers (depth + 1) (member :: rest)
    have hend := (Spaced.lineBreak depth).append (.single ['\x7d'])
    have h := Spaced.mark '\x7b' (hmembers.append hend)
    simpa using h

theorem spaced_prettyItems (depth : Nat) :
    ∀ items : List Document, Spaced (itemTokens items) (prettyItems depth items)
  | [] => .nil
  | [item] => (Spaced.lineBreak depth).append (spaced_prettyAt depth item)
  | item :: next :: rest => by
    unfold itemTokens prettyItems
    have hrest := Spaced.mark ',' (spaced_prettyItems depth (next :: rest))
    have h := (Spaced.lineBreak depth).append ((spaced_prettyAt depth item).append hrest)
    simpa using h

theorem spaced_prettyMembers (depth : Nat) :
    ∀ members : List (String × Document),
      Spaced (memberTokens members) (prettyMembers depth members)
  | [] => .nil
  | [(name, value)] => by
    unfold memberTokens prettyMembers
    have hvalue := Spaced.mark ':' (.blank (.inl rfl) (spaced_prettyAt depth value))
    have h := (Spaced.lineBreak depth).append (.token (quoted name) hvalue)
    simpa using h
  | (name, value) :: next :: rest => by
    unfold memberTokens prettyMembers
    have hrest := Spaced.mark ',' (spaced_prettyMembers depth (next :: rest))
    have hvalue := (spaced_prettyAt depth value).append hrest
    have hmember := Spaced.token (quoted name) (.mark ':' (.blank (.inl rfl) hvalue))
    have h := (Spaced.lineBreak depth).append hmember
    simpa using h

end

theorem spaced_pretty (d : Document) : Spaced d.tokens d.pretty := spaced_prettyAt 0 d

/-! ## 4. Leaves -/

mutual

/-- The documents without parts inside a document, the names of members among them. -/
def leaves : Document → List Document
  | list items => itemLeaves items
  | object members => memberLeaves members
  | d => [d]

/-- The leaves of items. -/
def itemLeaves : List Document → List Document
  | [] => []
  | item :: rest => item.leaves ++ itemLeaves rest

/-- The leaves of members. -/
def memberLeaves : List (String × Document) → List Document
  | [] => []
  | (name, value) :: rest => text name :: value.leaves ++ memberLeaves rest

end

theorem mem_leaves_list {items : List Document} {leaf : Document} :
    leaf ∈ (list items).leaves ↔ ∃ item ∈ items, leaf ∈ item.leaves := by
  show leaf ∈ itemLeaves items ↔ _
  induction items with
  | nil => simp [itemLeaves]
  | cons item rest ih => simp [itemLeaves, ih]

theorem mem_leaves_object {members : List (String × Document)} {leaf : Document} :
    leaf ∈ (object members).leaves ↔ ∃ m ∈ members, leaf = text m.1 ∨ leaf ∈ m.2.leaves := by
  show leaf ∈ memberLeaves members ↔ _
  induction members with
  | nil => simp [memberLeaves]
  | cons m rest ih => simp [memberLeaves, ih, or_assoc]

theorem mem_optional {α : Type} {name : String} {document : α → Document} {value? : Option α}
    {m : String × Document} :
    m ∈ optional name document value? ↔ ∃ value, value? = some value ∧ m = (name, document value) := by
  cases value? with
  | none => simp [optional]
  | some value => simp [optional]

theorem fst_of_mem_optional {α : Type} {name : String} {document : α → Document} {value? : Option α}
    {m : String × Document} (h : m ∈ optional name document value?) : m.1 = name := by
  obtain ⟨_, -, rfl⟩ := mem_optional.1 h
  rfl

/-- Members in front of others tell whether an optional one is among them, and its value. -/
theorem optional_append_inj {α : Type} {name : String} {document : α → Document}
    (hdocument : Function.Injective document) {a? b? : Option α}
    {rest rest' : List (String × Document)} (hrest : ∀ m ∈ rest, m.1 ≠ name)
    (hrest' : ∀ m ∈ rest', m.1 ≠ name)
    (h : optional name document a? ++ rest = optional name document b? ++ rest') :
    a? = b? ∧ rest = rest' := by
  cases a? with
  | none =>
    cases b? with
    | none => exact ⟨rfl, h⟩
    | some b =>
      have hrest₀ : rest = (name, document b) :: rest' := h
      exact absurd rfl (hrest (name, document b) (hrest₀ ▸ List.mem_cons_self))
  | some a =>
    cases b? with
    | none =>
      have hrest₀ : (name, document a) :: rest = rest' := h
      exact absurd rfl (hrest' (name, document a) (hrest₀ ▸ List.mem_cons_self))
    | some b =>
      obtain ⟨hfirst, hrest⟩ := List.cons.inj h
      rw [hdocument (Prod.mk.inj hfirst).2]
      exact ⟨rfl, hrest⟩

theorem optional_injective {α : Type} {name : String} {document : α → Document}
    (hdocument : Function.Injective document) : Function.Injective (optional name document) := by
  intro a? b? h
  have hnone : ∀ m ∈ ([] : List (String × Document)), m.1 ≠ name := by simp
  exact (optional_append_inj hdocument hnone hnone (congrArg (· ++ []) h)).1

/-- The marks between names and values. -/
def marks : List Char := ['[', ']', '\x7b', '\x7d', ',', ':']

mutual

/-- **A token is a mark or the text of a leaf.** -/
theorem mem_tokens {t : List Char} : ∀ {d : Document}, t ∈ d.tokens →
    (∃ c ∈ marks, t = [c]) ∨ ∃ leaf ∈ d.leaves, t = leaf.compact
  | null, h | boolean _, h | integer _, h | number _, h | text _, h =>
    .inr ⟨_, List.mem_singleton_self _, List.mem_singleton.1 h⟩
  | list items, h => by
    unfold tokens at h
    rw [List.mem_append, List.mem_cons, List.mem_singleton] at h
    rcases h with (rfl | h) | rfl
    · exact .inl ⟨'[', by decide, rfl⟩
    · exact mem_itemTokens h
    · exact .inl ⟨']', by decide, rfl⟩
  | object members, h => by
    unfold tokens at h
    rw [List.mem_append, List.mem_cons, List.mem_singleton] at h
    rcases h with (rfl | h) | rfl
    · exact .inl ⟨'\x7b', by decide, rfl⟩
    · exact mem_memberTokens h
    · exact .inl ⟨'\x7d', by decide, rfl⟩

theorem mem_itemTokens {t : List Char} : ∀ {items : List Document}, t ∈ itemTokens items →
    (∃ c ∈ marks, t = [c]) ∨ ∃ leaf ∈ itemLeaves items, t = leaf.compact
  | [item], h => by
    unfold itemLeaves itemLeaves
    rw [List.append_nil]
    exact mem_tokens (d := item) h
  | item :: next :: rest, h => by
    unfold itemTokens at h
    rw [List.mem_append, List.mem_cons] at h
    rcases h with h | rfl | h
    · exact (mem_tokens h).imp_right fun ⟨leaf, hleaf, ht⟩ =>
        ⟨leaf, List.mem_append_left _ hleaf, ht⟩
    · exact .inl ⟨',', by decide, rfl⟩
    · exact (mem_itemTokens h).imp_right fun ⟨leaf, hleaf, ht⟩ =>
        ⟨leaf, List.mem_append_right _ hleaf, ht⟩

theorem mem_memberTokens {t : List Char} : ∀ {members : List (String × Document)},
    t ∈ memberTokens members →
      (∃ c ∈ marks, t = [c]) ∨ ∃ leaf ∈ memberLeaves members, t = leaf.compact
  | [(name, value)], h => by
    unfold memberTokens at h
    unfold memberLeaves memberLeaves
    rw [List.mem_cons, List.mem_cons] at h
    rw [List.append_nil]
    rcases h with rfl | rfl | h
    · exact .inr ⟨text name, List.mem_cons_self, rfl⟩
    · exact .inl ⟨':', by decide, rfl⟩
    · exact (mem_tokens h).imp_right fun ⟨leaf, hleaf, ht⟩ =>
        ⟨leaf, List.mem_cons_of_mem _ hleaf, ht⟩
  | (name, value) :: next :: rest, h => by
    unfold memberTokens at h
    unfold memberLeaves
    rw [List.mem_append, List.mem_cons, List.mem_cons, List.mem_cons] at h
    rcases h with (rfl | rfl | h) | rfl | h
    · exact .inr ⟨text name, List.mem_append_left _ List.mem_cons_self, rfl⟩
    · exact .inl ⟨':', by decide, rfl⟩
    · exact (mem_tokens h).imp_right fun ⟨leaf, hleaf, ht⟩ =>
        ⟨leaf, List.mem_append_left _ (List.mem_cons_of_mem _ hleaf), ht⟩
    · exact .inl ⟨',', by decide, rfl⟩
    · exact (mem_memberTokens h).imp_right fun ⟨leaf, hleaf, ht⟩ =>
        ⟨leaf, List.mem_append_right _ hleaf, ht⟩

end

mutual

/-- The texts of the leaves are tokens, in the order of the leaves. -/
theorem leaves_sublist_tokens : ∀ d : Document, (d.leaves.map compact).Sublist d.tokens
  | null | boolean _ | integer _ | number _ | text _ => .refl _
  | list items => by
    unfold tokens
    exact .cons _ ((itemLeaves_sublist_itemTokens items).trans (List.sublist_append_left _ _))
  | object members => by
    unfold tokens
    exact .cons _ ((memberLeaves_sublist_memberTokens members).trans (List.sublist_append_left _ _))

theorem itemLeaves_sublist_itemTokens :
    ∀ items : List Document, ((itemLeaves items).map compact).Sublist (itemTokens items)
  | [] => .slnil
  | [item] => by
    unfold itemLeaves itemLeaves
    rw [List.append_nil]
    exact leaves_sublist_tokens item
  | item :: next :: rest => by
    unfold itemLeaves itemTokens
    rw [List.map_append]
    exact (leaves_sublist_tokens item).append (.cons _ (itemLeaves_sublist_itemTokens (next :: rest)))

theorem memberLeaves_sublist_memberTokens :
    ∀ members : List (String × Document),
      ((memberLeaves members).map compact).Sublist (memberTokens members)
  | [] => .slnil
  | [(name, value)] => by
    unfold memberLeaves memberLeaves memberTokens
    rw [List.append_nil]
    exact .cons_cons _ (.cons _ (leaves_sublist_tokens value))
  | (name, value) :: next :: rest => by
    unfold memberLeaves memberTokens
    rw [List.map_append]
    refine .append (.cons_cons _ (.cons _ (leaves_sublist_tokens value))) (.cons _ ?_)
    exact memberLeaves_sublist_memberTokens (next :: rest)

end

end Document

/-! ## 5. Where `null` stands -/

/-- A text in which no `null` stands, and at whose end none can start. -/
def NullFree (t : List Char) : Prop :=
  t.IsChain (fun a b => ¬ (a = 'n' ∧ b = 'u')) ∧ t.getLast? ≠ some 'n'

instance (t : List Char) : Decidable (NullFree t) := inferInstanceAs (Decidable (_ ∧ _))

theorem nullFree_of_forall_ne {t : List Char} (h : ∀ c ∈ t, c ≠ 'n') : NullFree t := by
  have hpairs : t.Pairwise fun a b => ¬ (a = 'n' ∧ b = 'u') :=
    List.pairwise_of_forall_mem_list fun a ha _ _ hn => h a ha hn.1
  exact ⟨hpairs.isChain, fun hlast => h 'n' (List.mem_of_getLast? hlast) rfl⟩

theorem NullFree.append {a b : List Char} (ha : NullFree a) (hb : NullFree b) :
    NullFree (a ++ b) := by
  refine ⟨List.isChain_append.2 ⟨ha.1, hb.1, fun x hx y _ hn => ?_⟩, fun hlast => ?_⟩
  · exact ha.2 (hn.1 ▸ hx)
  · rw [List.getLast?_append] at hlast
    cases hb' : b.getLast? with
    | none =>
      rw [hb'] at hlast
      exact ha.2 hlast
    | some c =>
      rw [hb'] at hlast
      exact hb.2 (hb'.trans hlast)

theorem NullFree.not_isInfix {t : List Char} (h : NullFree t) : ¬ "null".toList <:+: t := by
  intro hinfix
  obtain ⟨before, behind, rfl⟩ := hinfix
  have hchain := h.1
  rw [List.append_assoc] at hchain
  exact (List.isChain_append_cons_cons.1 hchain).2.1 ⟨rfl, rfl⟩

namespace Spaced

variable {tokens : List (List Char)} {text : List Char}

/-- Blanks between tokens keep a text free of `null`. -/
theorem nullFree (h : Spaced tokens text) (htokens : ∀ t ∈ tokens, NullFree t) : NullFree text := by
  induction h with
  | nil => exact nullFree_of_forall_ne (by simp)
  | token t _ ih =>
    exact (htokens t List.mem_cons_self).append
      (ih fun u hu => htokens u (List.mem_cons_of_mem t hu))
  | blank hc _ ih =>
    refine NullFree.append (a := [_]) (nullFree_of_forall_ne ?_) (ih htokens)
    rintro c hmem rfl
    rw [← List.mem_singleton.1 hmem] at hc
    exact absurd hc (by decide)

theorem isInfix_of_mem (h : Spaced tokens text) {t : List Char} (ht : t ∈ tokens) : t <:+: text := by
  induction h with
  | nil => cases ht
  | token u _ ih =>
    rcases List.mem_cons.1 ht with rfl | ht
    · exact List.infix_append' [] t _
    · exact (ih ht).trans (List.suffix_append _ _).isInfix
  | blank _ _ ih => exact (ih ht).trans (List.suffix_cons _ _).isInfix

end Spaced

/-- A character of a number that is finite: a digit, a sign, the point or the `e`. -/
def IsNumeric (c : Char) : Prop := c.isDigit = true ∨ c ∈ ['-', '+', '.', 'e']

theorem isNumeric_of_mem_integerText {i : Int} {c : Char} (h : c ∈ integerText i) :
    IsNumeric c := by
  unfold integerText at h
  split at h
  · rcases List.mem_cons.1 h with rfl | h
    · exact .inr (by decide)
    · exact .inl (isDigit_of_mem_digitsOf h)
  · exact .inl (isDigit_of_mem_digitsOf h)

theorem isNumeric_of_mem_positional {wholePoint : Bool} {ds : List Char} {place : Int} {c : Char}
    (hds : ∀ d ∈ ds, IsNumeric d) (h : c ∈ Notation.positional wholePoint ds place) :
    IsNumeric c := by
  have hzeros {k : Nat} (hc : c ∈ zeros k) : IsNumeric c := by
    rw [(List.mem_replicate.1 hc).2]
    exact .inl rfl
  unfold Notation.positional at h
  split at h
  · simp only [List.cons_append, List.mem_cons, List.mem_append] at h
    rcases h with rfl | rfl | h | h
    · exact .inl rfl
    · exact .inr (by decide)
    · exact hzeros h
    · exact hds c h
  · dsimp only at h
    split at h
    · simp only [List.mem_append] at h
      rcases h with (h | h) | h
      · exact hds c h
      · exact hzeros h
      · split at h
        · simp only [List.mem_cons, List.not_mem_nil, or_false] at h
          rcases h with rfl | rfl
          · exact .inr (by decide)
          · exact .inl rfl
        · cases h
    · rw [List.mem_append, List.mem_cons] at h
      rcases h with h | rfl | h
      · exact hds c (List.mem_of_mem_take h)
      · exact .inr (by decide)
      · exact hds c (List.mem_of_mem_drop h)

theorem isNumeric_of_mem_scientific {exponentPlus : Bool} {ds : List Char} {place : Int} {c : Char}
    (hds : ∀ d ∈ ds, IsNumeric d) (h : c ∈ Notation.scientific exponentPlus ds place) :
    IsNumeric c := by
  unfold Notation.scientific at h
  dsimp only at h
  rw [List.mem_append, List.mem_cons] at h
  rcases h with h | rfl | h
  · split at h
    · cases h
    · exact hds c h
    · simp only [List.mem_cons] at h
      rcases h with rfl | rfl | h
      · exact hds _ List.mem_cons_self
      · exact .inr (by decide)
      · exact hds c (List.mem_cons_of_mem _ h)
  · exact .inr (by decide)
  · split at h
    · exact isNumeric_of_mem_integerText h
    · split at h
      · rcases List.mem_cons.1 h with rfl | h
        · exact .inr (by decide)
        · exact isNumeric_of_mem_integerText h
      · exact isNumeric_of_mem_integerText h

/-- The text of a finite number has no other characters. -/
theorem isNumeric_of_mem_numberText {x : Binary64} (hx : x.isFinite = true) {c : Char}
    (h : c ∈ numberText x) : IsNumeric c := by
  have hdigits : ∀ d ∈ digitsOf (x.shortest numberNotation.tie).digits, IsNumeric d :=
    fun d hd => .inl (isDigit_of_mem_digitsOf hd)
  have hsize (hc : c ∈ numberNotation.size x) : IsNumeric c := by
    unfold Notation.size at hc
    dsimp only at hc
    split at hc
    · exact isNumeric_of_mem_positional hdigits hc
    · exact isNumeric_of_mem_scientific hdigits hc
  have hnumber : x.isNaN = false := Binary64.isNaN_of_isFinite hx
  have hfinite : x.isInfinite = false := Binary64.isInfinite_of_isFinite hx
  unfold numberText Notation.render at h
  simp only [hx, hnumber, hfinite, Bool.false_eq_true, if_true, if_false] at h
  split at h
  · rcases List.mem_cons.1 h with rfl | h
    · exact .inr (by decide)
    · exact hsize h
  · exact hsize h

theorem IsNumeric.nullFree {t : List Char} (h : ∀ c ∈ t, IsNumeric c) : NullFree t := by
  refine nullFree_of_forall_ne fun c hc heq => ?_
  subst heq
  exact absurd (h 'n' hc) (by unfold IsNumeric; decide)

namespace Document

/-- A leaf whose text is free of `null`, unless it is a number. -/
def IsNullFree : Document → Prop
  | boolean _ | integer _ | number _ => True
  | text s => NullFree (quoted s)
  | null | list _ | object _ => False

/-- **Where `null` stands in a text:** if no word and no text of the document spells it, just the
numbers that are not finite do. -/
theorem null_isInfix_iff {d : Document} (hleaves : ∀ leaf ∈ d.leaves, leaf.IsNullFree)
    {text : List Char} (htext : Spaced d.tokens text) :
    "null".toList <:+: text ↔ ∃ x, number x ∈ d.leaves ∧ x.isFinite = false := by
  constructor
  · intro hinfix
    refine Classical.byContradiction fun hnone => (htext.nullFree fun t ht => ?_).not_isInfix hinfix
    rcases mem_tokens ht with ⟨c, hc, rfl⟩ | ⟨leaf, hleaf, rfl⟩
    · have hmarks : ∀ c ∈ marks, NullFree [c] := List.all_iff_forall_prop.1 (by decide)
      exact hmarks c hc
    · have hfree := hleaves leaf hleaf
      cases leaf with
      | boolean b => cases b <;> decide
      | integer i => exact IsNumeric.nullFree fun c hc => isNumeric_of_mem_integerText hc
      | text s => exact hfree
      | number x =>
        have hfinite : x.isFinite = true :=
          Bool.not_eq_false _ ▸ fun hx => hnone ⟨x, hleaf, hx⟩
        exact IsNumeric.nullFree fun c hc => isNumeric_of_mem_numberText hfinite hc
      | null | list _ | object _ => exact hfree.elim
  · intro ⟨x, hx, hfinite⟩
    have hcompact : (number x).compact = "null".toList := by
      unfold compact numberText
      rw [hfinite]
      rfl
    rw [← hcompact]
    exact htext.isInfix_of_mem (d.leaves_sublist_tokens.subset (List.mem_map_of_mem hx))

end Document

end PowerShare.Json
