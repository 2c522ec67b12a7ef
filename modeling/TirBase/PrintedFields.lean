import TirBase.SchemaRules

/-! # What the grammar reads from a printed field -/
namespace TirBase.SchemaText
open Peg

def IsFinite (f : Fin (2 ^ 64)) : Prop := f.val / 2 ^ 52 % 2 ^ 11 ≠ 2 ^ 11 - 1

instance (f : Fin (2 ^ 64)) : Decidable (IsFinite f) := inferInstanceAs (Decidable (_ ≠ _))

/-- A finite double is shown as a whole number, or with a point and further digits, never with an
exponent, and what is shown reads back as the double, also with `.0` behind it. -/
structure ReadsBack (lib : TextLibraries) : Prop where
  shown : ∀ f, IsFinite f → ∃ sign ds fraction,
    IsSigned (sign ++ ds) sign ds ∧ (∀ d ∈ fraction, d.isDigit = true) ∧
      ((lib.displayFloat f).toList = sign ++ ds ∨
        (lib.displayFloat f).toList = sign ++ ds ++ '.' :: fraction)
  shown_infinite : ∀ f, ¬ IsFinite f → lib.displayFloat f ∈ ["inf", "-inf", "NaN"]
  read_shown : ∀ f, IsFinite f → lib.parseFloat (lib.displayFloat f) = f
  read_pointed : ∀ f, IsFinite f → '.' ∉ (lib.displayFloat f).toList →
    lib.parseFloat (lib.displayFloat f ++ ".0") = f

/-- A default that can be written: a text without a quote, an integer of 64 bits. -/
def Writable : DefaultValue → Prop
  | .text s => '"' ∉ s.toList
  | .integer i => -2 ^ 63 ≤ i ∧ i < 2 ^ 63
  | _ => True

/-- A default that reads back: the doubles that are not finite have no literal. -/
def HasLiteral : DefaultValue → Prop
  | .real f => IsFinite f
  | _ => True

variable (lib : TextLibraries)

def defaultPair : DefaultValue → DefaultPair
  | .text s => .string ('"' :: (s.toList ++ ['"']))
  | .integer i => .integer (toString i).toList
  | .real f => .real (printReal lib f).toList
  | .boolean true => .boolTrue
  | .boolean false => .boolFalse
  | .null => .null

theorem isSigned_toString (i : ℤ) : ∃ sign ds, IsSigned (toString i).toList sign ds ∧
    i = (if sign = [] then (Nat.ofDigitChars 10 ds 0 : ℤ) else -(Nat.ofDigitChars 10 ds 0 : ℤ)) := by
  have hdigits : ∀ n : ℕ, ∀ d ∈ Nat.toDigits 10 n, d.isDigit = true :=
    fun n d hd => Nat.isDigit_of_mem_toDigits (by omega) (by omega) hd
  cases i with
  | ofNat n =>
    refine ⟨[], Nat.toDigits 10 n, ⟨?_, Or.inl rfl, Nat.toDigits_ne_nil, hdigits n⟩, ?_⟩
    · exact Nat.toList_repr
    · rw [if_pos rfl, Nat.ofDigitChars_ten_toDigits]
      rfl
  | negSucc n =>
    refine ⟨['-'], Nat.toDigits 10 (n + 1),
      ⟨?_, Or.inr rfl, Nat.toDigits_ne_nil, hdigits (n + 1)⟩, ?_⟩
    · have hshow : toString (Int.negSucc n) = "-" ++ Nat.repr (n + 1) := rfl
      rw [hshow, String.toList_append, Nat.toList_repr]
      rfl
    · rw [if_neg (by simp), Nat.ofDigitChars_ten_toDigits]
      rfl

theorem digits_ne_minus {ds : List Char} (hds : ∀ d ∈ ds, d.isDigit = true) :
    ∀ rest, ds = '-' :: rest → False := by
  intro rest h
  have hdig := hds '-' (by simp [h])
  exact absurd hdig (by decide)

theorem signedValue_toString (i : ℤ) : signedValue (toString i).toList = i := by
  obtain ⟨sign, ds, hs, hi⟩ := isSigned_toString i
  rw [hs.shape]
  rcases hs.sign with hsign | hsign
  · rw [if_pos hsign] at hi
    rw [hsign, List.nil_append, signedValue]
    · exact hi.symm
    · exact digits_ne_minus hs.digits
  · rw [if_neg (by simp [hsign])] at hi
    rw [hsign, List.singleton_append, signedValue]
    exact hi.symm

theorem parseI64_toString {i : ℤ} (h : -2 ^ 63 ≤ i ∧ i < 2 ^ 63) :
    parseI64 (toString i).toList = some i := by
  rw [parseI64, signedValue_toString]
  exact if_pos h

theorem parseU64_toString {n : ℕ} (h : n < 2 ^ 64) :
    parseU64 (toString n).toList = some n := by
  have hshow : (toString n).toList = Nat.toDigits 10 n := Nat.toList_repr
  rw [hshow]
  rw [parseU64]
  · rw [Nat.ofDigitChars_ten_toDigits, if_pos h]
  · exact digits_ne_minus fun d hd => Nat.isDigit_of_mem_toDigits (by omega) (by omega) hd

/-- A finite double is printed as digits with a point among them. -/
theorem printReal_finite (hlib : ReadsBack lib) {f : Fin (2 ^ 64)} (hf : IsFinite f) :
    (∃ sign ds fraction, IsSigned (sign ++ ds) sign ds ∧ (∀ d ∈ fraction, d.isDigit = true) ∧
      (printReal lib f).toList = sign ++ ds ++ '.' :: fraction) ∧
      lib.parseFloat (printReal lib f) = f := by
  obtain ⟨sign, ds, fraction, hs, hfrac, hshow⟩ := hlib.shown f hf
  rcases hshow with hshow | hshow
  · have hplain : ∀ c ∈ (lib.displayFloat f).toList,
        c ≠ '.' ∧ c ≠ 'e' ∧ c ≠ 'E' := by
      intro c hc
      rw [hshow] at hc
      rcases List.mem_append.mp hc with hc | hc
      · rcases hs.sign with rfl | rfl
        · exact absurd hc (by simp)
        · rw [List.mem_singleton.mp hc]
          decide
      · have hdig := hs.digits c hc
        refine ⟨?_, ?_, ?_⟩
        · rintro rfl
          exact absurd hdig (by decide)
        · rintro rfl
          exact absurd hdig (by decide)
        · rintro rfl
          exact absurd hdig (by decide)
    have hany : (lib.displayFloat f).toList.any
        (fun c => c == '.' || c == 'e' || c == 'E') = false := by
      rw [List.any_eq_false]
      intro c hc
      obtain ⟨h1, h2, h3⟩ := hplain c hc
      simp [h1, h2, h3]
    have hprint : printReal lib f = lib.displayFloat f ++ ".0" := by
      simp only [printReal, hany]
      rfl
    have hzero : ∀ d ∈ ['0'], d.isDigit = true := by
      intro d hd
      rw [List.mem_singleton.mp hd]
      rfl
    refine ⟨⟨sign, ds, ['0'], hs, hzero, ?_⟩, ?_⟩
    · rw [hprint, String.toList_append, hshow]
      rfl
    · rw [hprint]
      exact hlib.read_pointed f hf fun hdot => (hplain '.' hdot).1 rfl
  · have hany : (lib.displayFloat f).toList.any
        (fun c => c == '.' || c == 'e' || c == 'E') = true := by
      rw [List.any_eq_true]
      exact ⟨'.', by simp [hshow], by decide⟩
    have hprint : printReal lib f = lib.displayFloat f := by
      simp only [printReal, hany]
      rfl
    exact ⟨⟨sign, ds, fraction, hs, hfrac, by rw [hprint, hshow]⟩,
      by rw [hprint]; exact hlib.read_shown f hf⟩

theorem parseDefaultValue_pair (hlib : ReadsBack lib) {d : DefaultValue} (hw : Writable d)
    (hl : HasLiteral d) : parseDefaultValue lib (defaultPair lib d) = d := by
  cases d with
  | text s => rw [defaultPair, parseDefaultValue, unquoted_quoted, String.ofList_toList]
  | integer i => rw [defaultPair, parseDefaultValue, parseI64_toString hw, Option.getD_some]
  | real f =>
    rw [defaultPair, parseDefaultValue, String.ofList_toList, (printReal_finite lib hlib hl).2]
  | boolean b => cases b <;> rfl
  | null => rfl

/-- The end of a line stops every literal. -/
theorem head_newline_not_digit {r : List Char} :
    ∀ c ∈ ('\n' :: r).head?, c.isDigit = false := by
  intro c hc
  obtain rfl : '\n' = c := Option.some.inj hc
  decide

/-- A text that starts as no number and no string is one of the words or no default. -/
theorem defaultValue_word {c : Char} {cs : List Char} {o : Option (DefaultPair × List Char)}
    (ho : ((keyword "true" (c :: cs)).map fun cs => (DefaultPair.boolTrue, cs)).or
      (((keyword "false" (c :: cs)).map fun cs => (DefaultPair.boolFalse, cs)).or
        ((keyword "null" (c :: cs)).map fun cs => (DefaultPair.null, cs))) = o)
    (hs : c ≠ '-') (hd : c.isDigit = false) (hq : c ≠ '"') : defaultValue (c :: cs) = o := by
  rw [defaultValue, realLiteral_eq_none hs hd, integerLiteral_eq_none hs hd,
    stringLiteral_eq_none hq]
  simpa using ho

theorem defaultValue_printed (hlib : ReadsBack lib) {d : DefaultValue} (hw : Writable d)
    (hl : HasLiteral d) (r : List Char) :
    defaultValue ((printDefaultValue lib d).toList ++ '\n' :: r) =
      some (defaultPair lib d, '\n' :: r) := by
  cases d with
  | text s =>
    have htext : (printDefaultValue lib (.text s)).toList ++ '\n' :: r =
        '"' :: (s.toList ++ '"' :: '\n' :: r) := by
      simp [printDefaultValue]
    rw [htext, defaultValue, realLiteral_eq_none (by decide) (by decide),
      integerLiteral_eq_none (by decide) (by decide), stringLiteral_append hw]
    rfl
  | integer i =>
    obtain ⟨sign, ds, hs, -⟩ := isSigned_toString i
    have hint := integerLiteral_append hs (head_newline_not_digit (r := r))
    have hreal : realLiteral ((toString i).toList ++ '\n' :: r) = none := by
      rw [realLiteral, hint]
      rfl
    rw [printDefaultValue, defaultValue, hreal, hint]
    rfl
  | real f =>
    obtain ⟨⟨sign, ds, fraction, hs, hfrac, hshow⟩, -⟩ := printReal_finite lib hlib hl
    have hint : integerLiteral (sign ++ ds ++ '.' :: (fraction ++ '\n' :: r)) =
        some (sign ++ ds, '.' :: (fraction ++ '\n' :: r)) := by
      apply integerLiteral_append hs
      intro c hc
      rw [← Option.mem_some.mp hc]
      decide
    have hreal : realLiteral (sign ++ ds ++ '.' :: (fraction ++ '\n' :: r)) =
        some (sign ++ ds ++ '.' :: fraction, '\n' :: r) := by
      have hkey : keyword "." ('.' :: (fraction ++ '\n' :: r)) = some (fraction ++ '\n' :: r) :=
        keyword_append "." _
      have htake : (fraction ++ '\n' :: r).takeWhile Char.isDigit = fraction := by
        rw [List.takeWhile_append_of_pos hfrac]
        simp
      have hdrop : (fraction ++ '\n' :: r).dropWhile Char.isDigit = '\n' :: r := by
        rw [List.dropWhile_append_of_pos hfrac]
        simp
      simp only [realLiteral, hint, Option.bind_eq_bind, Option.bind_some, hkey, htake, hdrop]
      rfl
    rw [printDefaultValue, defaultPair, hshow, List.append_assoc, List.cons_append, defaultValue,
      hreal]
    rfl
  | boolean b =>
    cases b with
    | true =>
      have htext : (printDefaultValue lib (.boolean true)).toList ++ '\n' :: r =
          't' :: 'r' :: 'u' :: 'e' :: '\n' :: r := by
        simp [printDefaultValue]
      rw [htext]
      apply defaultValue_word <;> first | decide | rfl
    | false =>
      have htext : (printDefaultValue lib (.boolean false)).toList ++ '\n' :: r =
          'f' :: 'a' :: 'l' :: 's' :: 'e' :: '\n' :: r := by
        simp [printDefaultValue]
      rw [htext]
      apply defaultValue_word <;> first | decide | rfl
  | null =>
    have htext : (printDefaultValue lib .null).toList ++ '\n' :: r =
        'n' :: 'u' :: 'l' :: 'l' :: '\n' :: r := by
      simp [printDefaultValue]
    rw [htext]
    apply defaultValue_word <;> first | decide | rfl

/-- No rule reads what an infinite double or no number is printed as. -/
theorem defaultValue_infinite (hlib : ReadsBack lib) {f : Fin (2 ^ 64)} (hf : ¬ IsFinite f)
    (r : List Char) : defaultValue ((printReal lib f).toList ++ r) = none := by
  have hshow := hlib.shown_infinite f hf
  simp only [List.mem_cons, List.not_mem_nil, or_false] at hshow
  rcases hshow with h | h | h
  · have hprint : printReal lib f = "inf.0" := by
      rw [printReal, h]
      rfl
    rw [hprint]
    rfl
  · have hprint : printReal lib f = "-inf.0" := by
      rw [printReal, h]
      rfl
    rw [hprint]
    rfl
  · have hprint : printReal lib f = "NaN.0" := by
      rw [printReal, h]
      rfl
    rw [hprint]
    rfl

theorem isIdentPart_of_isDigit {c : Char} (h : c.isDigit = true) : isIdentPart c = true := by
  simp [isIdentPart, Char.isAlphanum, h]

theorem IsSigned.skip {text sign ds : List Char} (h : IsSigned text sign ds) (r : List Char) :
    skip (text ++ r) = text ++ r := by
  rw [h.shape]
  obtain ⟨d, ds', hds⟩ := List.exists_cons_of_ne_nil h.nonempty
  rcases h.sign with hsign | hsign
  · rw [hsign, hds]
    exact skip_part (isIdentPart_of_isDigit (h.digits d (by simp [hds]))) _
  · rw [hsign]
    exact skip_of_start (by decide) (by decide) _

theorem skip_printDefaultValue (hlib : ReadsBack lib) (d : DefaultValue) (r : List Char) :
    skip ((printDefaultValue lib d).toList ++ r) = (printDefaultValue lib d).toList ++ r := by
  cases d with
  | text s =>
    rw [printDefaultValue, String.toList_append, String.toList_append]
    exact skip_of_start (by decide) (by decide) _
  | integer i =>
    obtain ⟨sign, ds, hs, -⟩ := isSigned_toString i
    exact hs.skip r
  | real f =>
    by_cases hf : IsFinite f
    · obtain ⟨⟨sign, ds, fraction, hs, -, hshow⟩, -⟩ := printReal_finite lib hlib hf
      rw [printDefaultValue, hshow, List.append_assoc]
      exact hs.skip _
    · have hshow := hlib.shown_infinite f hf
      simp only [List.mem_cons, List.not_mem_nil, or_false] at hshow
      rw [printDefaultValue, printReal]
      rcases hshow with h | h | h
      · rw [h]
        exact skip_of_start (c := 'i') (by decide) (by decide) _
      · rw [h]
        exact skip_of_start (c := '-') (by decide) (by decide) _
      · rw [h]
        exact skip_of_start (c := 'N') (by decide) (by decide) _
  | boolean b =>
    cases b with
    | true =>
      rw [printDefaultValue]
      exact skip_of_start (c := 't') (by decide) (by decide) _
    | false =>
      rw [printDefaultValue]
      exact skip_of_start (c := 'f') (by decide) (by decide) _
  | null =>
    rw [printDefaultValue]
    exact skip_of_start (c := 'n') (by decide) (by decide) _

/-- What the rule `default_value` reads at the front of a word. -/
def StartsValue (v : List Char) : Prop :=
  (∃ c ∈ v.head?, c.isDigit = true) ∨ "true".toList <+: v ∨ "false".toList <+: v ∨
    "null".toList <+: v

/-- A name whose front the grammar also reads as `NOT NULL`. -/
def ReadsAsNotNull (name : String) : Prop := "NOTNULL".toList <+: name.toList

/-- A name whose front the grammar also reads as `DEFAULT` with a value. -/
def ReadsAsDefault (name : String) : Prop :=
  ∃ v, name.toList = "DEFAULT".toList ++ v ∧ StartsValue v

theorem toList_canonicalStr (t : FieldType) : ∃ c cs, t.canonicalStr.toList = c :: cs ∧
    c ∈ ['T', 'I', 'R', 'B'] := by
  cases t
  · exact ⟨'T', _, rfl, by decide⟩
  · exact ⟨'I', _, rfl, by decide⟩
  · exact ⟨'R', _, rfl, by decide⟩
  · exact ⟨'B', _, rfl, by decide⟩
  · exact ⟨'B', _, rfl, by decide⟩

def IsTyped (r : List Char) : Prop := ∃ c cs, r = c :: cs ∧ c ∈ ['T', 'I', 'R', 'B']

theorem isTyped_append (t : FieldType) (r : List Char) :
    IsTyped (t.canonicalStr.toList ++ r) := by
  obtain ⟨c, cs, ht, hc⟩ := toList_canonicalStr t
  exact ⟨c, cs ++ r, by rw [ht, List.cons_append], hc⟩

theorem IsTyped.skip {r : List Char} (h : IsTyped r) : skip r = r := by
  obtain ⟨c, cs, rfl, hc⟩ := h
  apply skip_part
  simp only [List.mem_cons, List.not_mem_nil, or_false] at hc
  rcases hc with rfl | rfl | rfl | rfl <;> decide

theorem IsTyped.keyword {r : List Char} (h : IsTyped r) {s : String} {d : Char} {ds : List Char}
    (hs : s.toList = d :: ds) (hd : d ∉ ['T', 'I', 'R', 'B']) : keyword s r = none := by
  obtain ⟨c, cs, rfl, hc⟩ := h
  rw [SchemaText.keyword, hs]
  apply literal_cons_ne
  rintro rfl
  exact hd hc

theorem IsTyped.defaultValue {r : List Char} (h : IsTyped r) :
    SchemaText.defaultValue r = none := by
  have htrue : SchemaText.keyword "true" r = none := h.keyword rfl (by decide)
  have hfalse : SchemaText.keyword "false" r = none := h.keyword rfl (by decide)
  have hnull : SchemaText.keyword "null" r = none := h.keyword rfl (by decide)
  obtain ⟨c, cs, rfl, hc⟩ := h
  have hstart : c ≠ '-' ∧ c.isDigit = false ∧ c ≠ '"' := by
    simp only [List.mem_cons, List.not_mem_nil, or_false] at hc
    rcases hc with rfl | rfl | rfl | rfl <;> decide
  apply defaultValue_word _ hstart.1 hstart.2.1 hstart.2.2
  rw [htrue, hfalse, hnull]
  rfl

/-- After the front of a word the rest of the word comes next, if there is any. -/
theorem skip_rest {m r : List Char} (hm : ∀ d ∈ m, isIdentPart d = true) (hr : IsTyped r) :
    m = [] ∧ skip (m ++ ' ' :: r) = r ∨ m ≠ [] ∧ skip (m ++ ' ' :: r) = m ++ ' ' :: r := by
  cases m with
  | nil => exact Or.inl ⟨rfl, by rw [List.nil_append, skip_space, hr.skip]⟩
  | cons c m =>
    refine Or.inr ⟨List.cons_ne_nil c m, ?_⟩
    rw [List.cons_append]
    exact skip_part (hm c (by simp)) _

theorem notNullModifier_of_keyword {cs rest : List Char} (h : keyword "NOT" cs = some rest) :
    notNullModifier cs = (keyword "NULL" (skip rest)).map fun cs => ((), cs) := by
  rw [notNullModifier, h]
  cases hnull : keyword "NULL" (skip rest) <;> simp [hnull]

theorem notNullModifier_word {n r : List Char} (hn : ∀ d ∈ n, isIdentPart d = true)
    (hr : IsTyped r) :
    notNullModifier (n ++ ' ' :: r) = none ↔ ¬ "NOTNULL".toList <+: n := by
  rcases keyword_word (s := "NOT") (n := n) (r := r) (by decide) with ⟨hkey, hno⟩ | ⟨m, rfl, hkey⟩
  · have hprefix : ¬ "NOTNULL".toList <+: n := by
      intro h
      apply hno
      exact List.IsPrefix.trans (by decide) h
    exact iff_of_true (by simp [notNullModifier, hkey]) hprefix
  · have hm : ∀ d ∈ m, isIdentPart d = true := fun d hd => hn d (by simp [hd])
    have hcut : "NOTNULL".toList <+: "NOT".toList ++ m ↔ "NULL".toList <+: m :=
      List.prefix_append_right_inj "NOT".toList
    rw [hcut, notNullModifier_of_keyword hkey, Option.map_eq_none_iff]
    rcases skip_rest hm hr with ⟨rfl, hskip⟩ | ⟨-, hskip⟩
    · rw [hskip]
      exact iff_of_true (hr.keyword rfl (by decide)) (by decide)
    · rw [hskip]
      rcases keyword_word (s := "NULL") (n := m) (r := r) (by decide) with
        ⟨hnull, hno⟩ | ⟨m', rfl, hnull⟩
      · exact iff_of_true hnull hno
      · rw [hnull]
        exact iff_of_false (by simp) fun h => h (List.prefix_append _ _)

theorem defaultModifier_of_keyword {cs rest : List Char} (h : keyword "DEFAULT" cs = some rest) :
    defaultModifier cs = defaultValue (skip rest) := by
  rw [defaultModifier, h]
  rfl

theorem digits_isSome {c : Char} (hc : c.isDigit = true) (cs : List Char) :
    (digits (c :: cs)).isSome = true := by
  simp [digits, hc]

theorem defaultValue_digit {c : Char} (hc : c.isDigit = true) (cs : List Char) :
    defaultValue (c :: cs) ≠ none := by
  have hkey : keyword "-" (c :: cs) = none := by
    apply literal_cons_ne
    rintro rfl
    exact absurd hc (by decide)
  have hint : integerLiteral (c :: cs) = digits (c :: cs) := by
    rw [integerLiteral, hkey]
  obtain ⟨x, hx⟩ := Option.isSome_iff_exists.mp (digits_isSome hc cs)
  rw [defaultValue, hint, hx]
  cases hreal : realLiteral (c :: cs) <;> simp

theorem defaultValue_of_word {v r : List Char} (hv : ∀ d ∈ v, isIdentPart d = true)
    (hne : v ≠ []) : defaultValue (v ++ ' ' :: r) = none ↔ ¬ StartsValue v := by
  obtain ⟨c, cs, rfl⟩ := List.exists_cons_of_ne_nil hne
  have hpart := hv c (by simp)
  by_cases hd : c.isDigit = true
  · exact iff_of_false (defaultValue_digit hd _) fun h => h (Or.inl ⟨c, rfl, hd⟩)
  · have hd' : c.isDigit = false := by simpa using hd
    have hsign : c ≠ '-' := by
      rintro rfl
      exact absurd hpart (by decide)
    have hquote : c ≠ '"' := by
      rintro rfl
      exact absurd hpart (by decide)
    have hwords : StartsValue (c :: cs) ↔ "true".toList <+: c :: cs ∨
        "false".toList <+: c :: cs ∨ "null".toList <+: c :: cs := by
      simp [StartsValue, hd']
    have hkey : ∀ s : String, ' ' ∉ s.toList →
        (keyword s (c :: (cs ++ ' ' :: r)) = none ↔ ¬ s.toList <+: c :: cs) := by
      intro s hs
      have hcut := prefix_append_cons_iff (n := c :: cs) (r := r) hs
      rw [keyword, literal_eq_none_iff, ← hcut, List.cons_append]
    rw [List.cons_append, defaultValue_word rfl hsign hd' hquote, hwords]
    simp only [Option.or_eq_none_iff, Option.map_eq_none_iff, hkey _ (by decide : ' ' ∉ "true".toList),
      hkey _ (by decide : ' ' ∉ "false".toList), hkey _ (by decide : ' ' ∉ "null".toList), not_or]

theorem defaultModifier_word {n r : List Char} (hn : ∀ d ∈ n, isIdentPart d = true)
    (hr : IsTyped r) : defaultModifier (n ++ ' ' :: r) = none ↔
      ¬ ∃ v, n = "DEFAULT".toList ++ v ∧ StartsValue v := by
  rcases keyword_word (s := "DEFAULT") (n := n) (r := r) (by decide) with
    ⟨hkey, hno⟩ | ⟨m, rfl, hkey⟩
  · refine iff_of_true (by simp [defaultModifier, hkey]) ?_
    rintro ⟨v, rfl, -⟩
    exact hno (List.prefix_append _ _)
  · have hm : ∀ d ∈ m, isIdentPart d = true := fun d hd => hn d (by simp [hd])
    have hcut : (∃ v, "DEFAULT".toList ++ m = "DEFAULT".toList ++ v ∧ StartsValue v) ↔
        StartsValue m := by
      constructor
      · rintro ⟨v, hv, hs⟩
        rwa [List.append_cancel_left hv]
      · exact fun hs => ⟨m, rfl, hs⟩
    rw [hcut, defaultModifier_of_keyword hkey]
    rcases skip_rest hm hr with ⟨rfl, hskip⟩ | ⟨hne, hskip⟩
    · rw [hskip]
      refine iff_of_true hr.defaultValue ?_
      rintro (⟨c, hc, -⟩ | h | h | h)
      · exact absurd hc (by simp)
      · exact absurd h (by decide)
      · exact absurd h (by decide)
      · exact absurd h (by decide)
    · rw [hskip]
      exact defaultValue_of_word hm hne

end TirBase.SchemaText
