import TirBase.SchemaRoundTrip

/-! # Every schema that the parser returns can be written -/
namespace TirBase.SchemaText
open Peg

theorem length_of_keyword {s : String} {cs rest : List Char} (h : keyword s cs = some rest) :
    rest.length + s.toList.length = cs.length := by
  have htext := literal_eq_some_iff.mp h
  rw [htext, List.length_append, Nat.add_comm]

theorem length_dropWhile_le (p : Char → Bool) (cs : List Char) :
    (cs.dropWhile p).length ≤ cs.length :=
  (List.dropWhile_sublist p).length_le

theorem shrinks_ident : Shrinks ident := by
  intro cs n rest h
  cases cs with
  | nil => exact absurd h (by simp [ident])
  | cons c cs =>
    rw [ident] at h
    split at h
    · obtain ⟨-, rfl⟩ := Prod.mk.inj (Option.some.inj h)
      have hdrop := length_dropWhile_le isIdentPart cs
      rw [List.length_cons]
      omega
    · exact absurd h (by simp)

theorem shrinks_digits : Shrinks digits := by
  intro cs ds rest h
  rw [digits] at h
  split at h
  · exact absurd h (by simp)
  · next hne =>
    obtain ⟨-, rfl⟩ := Prod.mk.inj (Option.some.inj h)
    have hsum := congrArg List.length (List.takeWhile_append_dropWhile (p := Char.isDigit) (l := cs))
    have hpos : 0 < (cs.takeWhile Char.isDigit).length :=
      List.length_pos_iff.mpr fun hnil => hne (by rw [hnil]; rfl)
    rw [List.length_append] at hsum
    omega

theorem shrinks_integerLiteral : Shrinks integerLiteral := by
  intro cs text rest h
  rw [integerLiteral] at h
  split at h
  · next cs' hsign =>
    obtain ⟨⟨ds, rest'⟩, hds, heq⟩ := Option.map_eq_some_iff.mp h
    obtain ⟨-, rfl⟩ := Prod.mk.inj heq
    have hlen := length_of_keyword hsign
    have hlt := shrinks_digits _ _ _ hds
    omega
  · exact shrinks_digits _ _ _ h

theorem shrinks_realLiteral : Shrinks realLiteral := by
  intro cs text rest h
  obtain ⟨⟨whole, cs1⟩, hwhole, h⟩ := Option.bind_eq_some_iff.mp h
  obtain ⟨cs2, hpoint, h⟩ := Option.bind_eq_some_iff.mp h
  obtain ⟨-, rfl⟩ := Prod.mk.inj (Option.some.inj h)
  have hlt := shrinks_integerLiteral _ _ _ hwhole
  have hlen := length_of_keyword hpoint
  have hdrop := length_dropWhile_le Char.isDigit cs2
  omega

theorem shrinks_stringLiteral : Shrinks stringLiteral := by
  intro cs text rest h
  obtain ⟨cs1, hopen, h⟩ := Option.bind_eq_some_iff.mp h
  obtain ⟨cs2, hclose, h⟩ := Option.bind_eq_some_iff.mp h
  obtain ⟨-, rfl⟩ := Prod.mk.inj (Option.some.inj h)
  have hfirst := length_of_keyword hopen
  have hlast := length_of_keyword hclose
  have hdrop := length_dropWhile_le (· != '"') cs1
  have hquote : "\"".toList.length = 1 := rfl
  omega

/-- A keyword with what it stands for, as one of the choices of a rule. -/
theorem shrinks_keyword {α : Type} {s : String} (hs : s.toList ≠ []) (a : α) :
    Shrinks fun cs => (keyword s cs).map fun cs => (a, cs) := by
  intro cs b rest h
  obtain ⟨cs', hkey, heq⟩ := Option.map_eq_some_iff.mp h
  obtain ⟨-, rfl⟩ := Prod.mk.inj heq
  have hlen := length_of_keyword hkey
  have hpos := List.length_pos_iff.mpr hs
  omega

theorem shrinks_map {α β : Type} {p : Rule α} (hp : Shrinks p) (f : α → β) :
    Shrinks fun cs => (p cs).map fun x => (f x.1, x.2) := by
  intro cs b rest h
  obtain ⟨x, hx, heq⟩ := Option.map_eq_some_iff.mp h
  obtain ⟨-, rfl⟩ := Prod.mk.inj heq
  exact hp _ _ _ hx

theorem shrinks_orElse {α : Type} {p q : Rule α} (hp : Shrinks p) (hq : Shrinks q) :
    Shrinks fun cs => p cs <|> q cs := by
  intro cs a rest h
  rcases or_of_orElse h with h | h
  · exact hp _ _ _ h
  · exact hq _ _ _ h

theorem shrinks_defaultValue : Shrinks defaultValue := by
  apply shrinks_orElse (shrinks_map shrinks_realLiteral _)
  apply shrinks_orElse (shrinks_map shrinks_integerLiteral _)
  apply shrinks_orElse (shrinks_map shrinks_stringLiteral _)
  apply shrinks_orElse (shrinks_keyword (by decide) _)
  apply shrinks_orElse (shrinks_keyword (by decide) _)
  exact shrinks_keyword (by decide) _

theorem length_of_fieldType {cs text rest : List Char} (h : fieldType cs = some (text, rest)) :
    rest.length ≤ cs.length := by
  obtain ⟨s, -, h⟩ := List.exists_of_findSome?_eq_some h
  obtain ⟨cs', hkey, heq⟩ := Option.map_eq_some_iff.mp h
  obtain ⟨-, rfl⟩ := Prod.mk.inj heq
  have hlen := length_of_keyword hkey
  omega

theorem shrinks_notNullModifier : Shrinks notNullModifier := by
  intro cs a rest h
  obtain ⟨cs1, hnot, h⟩ := Option.bind_eq_some_iff.mp h
  obtain ⟨cs2, hnull, h⟩ := Option.bind_eq_some_iff.mp h
  obtain ⟨-, rfl⟩ := Prod.mk.inj (Option.some.inj h)
  have hfirst := length_of_keyword hnot
  have hsecond := length_of_keyword hnull
  have hskip := length_skip_le cs1
  have hlen : "NOT".toList.length = 3 := rfl
  omega

theorem shrinks_defaultModifier : Shrinks defaultModifier := by
  intro cs a rest h
  obtain ⟨cs1, hkey, h⟩ := Option.bind_eq_some_iff.mp h
  have hlen := length_of_keyword hkey
  have hskip := length_skip_le cs1
  have hlt := shrinks_defaultValue _ _ _ h
  omega

theorem shrinks_fieldDef : Shrinks fieldDef := by
  intro cs f rest h
  obtain ⟨⟨name, cs1⟩, hname, h⟩ := Option.bind_eq_some_iff.mp h
  obtain ⟨⟨type, cs2⟩, htype, h⟩ := Option.bind_eq_some_iff.mp h
  dsimp only at h
  obtain ⟨-, rfl⟩ := Prod.mk.inj (Option.some.inj h)
  have hlt := shrinks_ident _ _ _ hname
  have hskip1 := length_skip_le cs1
  have hle := length_of_fieldType htype
  have hskip2 := length_skip_le cs2
  have hnot := shrinks_notNullModifier.length_attempt_le (skip cs2)
  have hskip3 := length_skip_le (attempt notNullModifier (skip cs2)).2
  have hdefault := shrinks_defaultModifier.length_attempt_le
    (skip (attempt notNullModifier (skip cs2)).2)
  omega

theorem shrinks_nextColumn : Shrinks nextColumn := by
  intro cs c rest h
  obtain ⟨cs1, hkey, h⟩ := Option.bind_eq_some_iff.mp h
  have hlen := length_of_keyword hkey
  have hskip := length_skip_le cs1
  have hlt := shrinks_ident _ _ _ h
  omega

theorem shrinks_columnList : Shrinks columnList := by
  intro cs columns rest h
  obtain ⟨cs1, hopen, h⟩ := Option.bind_eq_some_iff.mp h
  obtain ⟨⟨column, cs2⟩, hcolumn, h⟩ := Option.bind_eq_some_iff.mp h
  obtain ⟨cs3, hclose, h⟩ := Option.bind_eq_some_iff.mp h
  obtain ⟨-, rfl⟩ := Prod.mk.inj (Option.some.inj h)
  have hfirst := length_of_keyword hopen
  have hskip1 := length_skip_le cs1
  have hlt := shrinks_ident _ _ _ hcolumn
  have hmany := shrinks_nextColumn.length_many_le length_skip_le cs2.length cs2
  have hskip2 := length_skip_le (many skip nextColumn cs2.length cs2).2
  have hlast := length_of_keyword hclose
  omega

theorem shrinks_tableItem : Shrinks tableItem := by
  have hprimary : Shrinks primaryKeyConstraint := by
    intro cs item rest h
    obtain ⟨cs1, hfirst, h⟩ := Option.bind_eq_some_iff.mp h
    obtain ⟨cs2, hsecond, h⟩ := Option.bind_eq_some_iff.mp h
    obtain ⟨⟨columns, cs3⟩, hcolumns, h⟩ := Option.bind_eq_some_iff.mp h
    obtain ⟨-, rfl⟩ := Prod.mk.inj (Option.some.inj h)
    have hlen1 := length_of_keyword hfirst
    have hskip1 := length_skip_le cs1
    have hlen2 := length_of_keyword hsecond
    have hskip2 := length_skip_le cs2
    have hlt := shrinks_columnList _ _ _ hcolumns
    omega
  have hunique : Shrinks uniqueConstraint := by
    intro cs item rest h
    obtain ⟨cs1, hfirst, h⟩ := Option.bind_eq_some_iff.mp h
    obtain ⟨⟨columns, cs2⟩, hcolumns, h⟩ := Option.bind_eq_some_iff.mp h
    obtain ⟨-, rfl⟩ := Prod.mk.inj (Option.some.inj h)
    have hlen := length_of_keyword hfirst
    have hskip := length_skip_le cs1
    have hlt := shrinks_columnList _ _ _ hcolumns
    omega
  exact shrinks_orElse hprimary (shrinks_orElse hunique (shrinks_map shrinks_fieldDef _))

theorem shrinks_compactionAggressive : Shrinks compactionAggressive := by
  intro cs text rest h
  obtain ⟨cs1, hfirst, h⟩ := Option.bind_eq_some_iff.mp h
  obtain ⟨cs2, hopen, h⟩ := Option.bind_eq_some_iff.mp h
  obtain ⟨⟨threshold, cs3⟩, hnumber, h⟩ := Option.bind_eq_some_iff.mp h
  obtain ⟨cs4, hclose, h⟩ := Option.bind_eq_some_iff.mp h
  obtain ⟨-, rfl⟩ := Prod.mk.inj (Option.some.inj h)
  have hlen1 := length_of_keyword hfirst
  have hskip1 := length_skip_le cs1
  have hlen2 := length_of_keyword hopen
  have hskip2 := length_skip_le cs2
  have hlt := shrinks_integerLiteral _ _ _ hnumber
  have hskip3 := length_skip_le cs3
  have hlen3 := length_of_keyword hclose
  omega

theorem shrinks_compactionDirective : Shrinks compactionDirective := by
  intro cs policy rest h
  obtain ⟨cs1, hkey, h⟩ := Option.bind_eq_some_iff.mp h
  obtain ⟨cs2, hequals, h⟩ := Option.bind_eq_some_iff.mp h
  have hlen1 := length_of_keyword hkey
  have hskip1 := length_skip_le cs1
  have hlen2 := length_of_keyword hequals
  have hskip2 := length_skip_le cs2
  have hchoice := shrinks_orElse (shrinks_map shrinks_compactionAggressive some)
    (shrinks_keyword (s := "none") (by decide) none) _ _ _ h
  omega

theorem shrinks_tableDef : Shrinks tableDef := by
  intro cs t rest h
  obtain ⟨cs1, hkey, h⟩ := Option.bind_eq_some_iff.mp h
  obtain ⟨⟨name, cs2⟩, hname, h⟩ := Option.bind_eq_some_iff.mp h
  obtain ⟨cs3, hopen, h⟩ := Option.bind_eq_some_iff.mp h
  obtain ⟨⟨policy, cs4⟩, hpolicy, h⟩ := Option.bind_eq_some_iff.mp h
  obtain ⟨cs5, hclose, h⟩ := Option.bind_eq_some_iff.mp h
  obtain ⟨-, rfl⟩ := Prod.mk.inj (Option.some.inj h)
  have hlen1 := length_of_keyword hkey
  have hskip1 := length_skip_le cs1
  have hlt := shrinks_ident _ _ _ hname
  have hskip2 := length_skip_le cs2
  have hlen2 := length_of_keyword hopen
  have hskip3 := length_skip_le cs3
  have hpolicy' := shrinks_compactionDirective _ _ _ hpolicy
  have hmany := shrinks_tableItem.length_many_le length_skip_le cs4.length cs4
  have hskip4 := length_skip_le (many skip tableItem cs4.length cs4).2
  have hlast := length_of_keyword hclose
  omega

/-- The three loops of the grammar end where their rule fails, not for want of turns. -/
theorem loops_end (cs : List Char) :
    nextColumn (skip (many skip nextColumn cs.length cs).2) = none ∧
      tableItem (skip (many skip tableItem cs.length cs).2) = none ∧
      tableDef (skip (many skip tableDef cs.length cs).2) = none :=
  ⟨many_ends length_skip_le shrinks_nextColumn (Nat.le_refl _),
    many_ends length_skip_le shrinks_tableItem (Nat.le_refl _),
    many_ends length_skip_le shrinks_tableDef (Nat.le_refl _)⟩

theorem stringLiteral_shape {cs text r : List Char} (h : stringLiteral cs = some (text, r)) :
    ∃ s, text = '"' :: (s ++ ['"']) ∧ '"' ∉ s := by
  obtain ⟨cs', -, h⟩ := Option.bind_eq_some_iff.mp h
  obtain ⟨rest, -, h⟩ := Option.bind_eq_some_iff.mp h
  obtain ⟨rfl, -⟩ := Prod.mk.inj (Option.some.inj h)
  refine ⟨cs'.takeWhile (· != '"'), rfl, ?_⟩
  intro hq
  exact absurd (List.mem_takeWhile_imp hq) (by simp)

/-- A string token is quoted and holds no further quote. -/
def Quoted : DefaultPair → Prop
  | .string text => ∃ s, text = '"' :: (s ++ ['"']) ∧ '"' ∉ s
  | _ => True

theorem quoted_of_map {β : Type*} {f : β → DefaultPair × List Char} {o : Option β}
    {d : DefaultPair} {r : List Char} (hf : ∀ x, Quoted (f x).1) (h : o.map f = some (d, r)) :
    Quoted d := by
  obtain ⟨x, -, hx⟩ := Option.map_eq_some_iff.mp h
  have hquoted := hf x
  rwa [hx] at hquoted

theorem quoted_of_defaultValue {cs r : List Char} {d : DefaultPair}
    (h : defaultValue cs = some (d, r)) : Quoted d := by
  rw [defaultValue] at h
  rcases or_of_orElse h with h | h
  · refine quoted_of_map ?_ h
    exact fun _ => trivial
  rcases or_of_orElse h with h | h
  · refine quoted_of_map ?_ h
    exact fun _ => trivial
  rcases or_of_orElse h with h | h
  · obtain ⟨⟨text, rest⟩, htext, hx⟩ := Option.map_eq_some_iff.mp h
    obtain ⟨rfl, -⟩ := Prod.mk.inj hx
    exact stringLiteral_shape htext
  rcases or_of_orElse h with h | h
  · refine quoted_of_map ?_ h
    exact fun _ => trivial
  rcases or_of_orElse h with h | h
  · refine quoted_of_map ?_ h
    exact fun _ => trivial
  · refine quoted_of_map ?_ h
    exact fun _ => trivial

def ReadItem : ItemPair → Prop
  | .primaryKey columns => columns ≠ [] ∧ ∀ c ∈ columns, IsIdent c
  | .unique columns => columns ≠ [] ∧ ∀ c ∈ columns, IsIdent c
  | .field f => IsIdent f.ident ∧ ∀ d, f.defaultModifier = some d → Quoted d

theorem columnList_idents {cs r : List Char} {columns : List (List Char)}
    (h : columnList cs = some (columns, r)) : columns ≠ [] ∧ ∀ c ∈ columns, IsIdent c := by
  obtain ⟨cs', -, h⟩ := Option.bind_eq_some_iff.mp h
  obtain ⟨⟨column, cs''⟩, hcolumn, h⟩ := Option.bind_eq_some_iff.mp h
  obtain ⟨rest, -, h⟩ := Option.bind_eq_some_iff.mp h
  obtain ⟨rfl, -⟩ := Prod.mk.inj (Option.some.inj h)
  refine ⟨List.cons_ne_nil _ _, ?_⟩
  intro c hc
  rcases List.mem_cons.mp hc with rfl | hc
  · exact isIdent_of_ident hcolumn
  · refine forall_mem_many (P := IsIdent) ?_ c hc
    intro cs c rest hnext
    obtain ⟨cs', -, hident⟩ := Option.bind_eq_some_iff.mp hnext
    exact isIdent_of_ident hident

theorem readItem_field {cs r : List Char} {f : FieldPair} (h : fieldDef cs = some (f, r)) :
    ReadItem (.field f) := by
  obtain ⟨⟨name, cs'⟩, hname, h⟩ := Option.bind_eq_some_iff.mp h
  obtain ⟨⟨type, cs''⟩, -, h⟩ := Option.bind_eq_some_iff.mp h
  obtain ⟨rfl, -⟩ := Prod.mk.inj (Option.some.inj h)
  refine ⟨isIdent_of_ident hname, ?_⟩
  intro d hd
  obtain ⟨rest, hread⟩ := exists_of_attempt hd
  obtain ⟨cs', -, hvalue⟩ := Option.bind_eq_some_iff.mp hread
  exact quoted_of_defaultValue hvalue

theorem readItem_of_tableItem {cs r : List Char} {item : ItemPair}
    (h : tableItem cs = some (item, r)) : ReadItem item := by
  rw [tableItem] at h
  rcases or_of_orElse h with h | h
  · obtain ⟨cs', -, h⟩ := Option.bind_eq_some_iff.mp h
    obtain ⟨cs'', -, h⟩ := Option.bind_eq_some_iff.mp h
    obtain ⟨⟨columns, rest⟩, hcolumns, h⟩ := Option.bind_eq_some_iff.mp h
    obtain ⟨rfl, -⟩ := Prod.mk.inj (Option.some.inj h)
    exact columnList_idents hcolumns
  rcases or_of_orElse h with h | h
  · obtain ⟨cs', -, h⟩ := Option.bind_eq_some_iff.mp h
    obtain ⟨⟨columns, rest⟩, hcolumns, h⟩ := Option.bind_eq_some_iff.mp h
    obtain ⟨rfl, -⟩ := Prod.mk.inj (Option.some.inj h)
    exact columnList_idents hcolumns
  · obtain ⟨⟨f, rest⟩, hf, h⟩ := Option.map_eq_some_iff.mp h
    obtain ⟨rfl, -⟩ := Prod.mk.inj h
    exact readItem_field hf

structure ReadTable (t : TablePair) : Prop where
  ident : IsIdent t.ident
  items : ∀ item ∈ t.items, ReadItem item

theorem readTable_of_tableDef {cs r : List Char} {t : TablePair}
    (h : tableDef cs = some (t, r)) : ReadTable t := by
  obtain ⟨cs1, -, h⟩ := Option.bind_eq_some_iff.mp h
  obtain ⟨⟨name, cs2⟩, hname, h⟩ := Option.bind_eq_some_iff.mp h
  obtain ⟨cs3, -, h⟩ := Option.bind_eq_some_iff.mp h
  obtain ⟨⟨policy, cs4⟩, -, h⟩ := Option.bind_eq_some_iff.mp h
  obtain ⟨cs5, -, h⟩ := Option.bind_eq_some_iff.mp h
  obtain ⟨rfl, -⟩ := Prod.mk.inj (Option.some.inj h)
  refine ⟨isIdent_of_ident hname, ?_⟩
  exact forall_mem_many readItem_of_tableItem

variable (lib : TextLibraries)

theorem writable_parseDefaultValue {d : DefaultPair} (hd : Quoted d) :
    Writable (parseDefaultValue lib d) := by
  cases d with
  | integer text =>
    change -2 ^ 63 ≤ (parseI64 text).getD 0 ∧ (parseI64 text).getD 0 < 2 ^ 63
    rw [parseI64]
    split
    · next h => exact h
    · simp
  | string text =>
    obtain ⟨s, rfl, hs⟩ := hd
    change '"' ∉ (unquoted ('"' :: (s ++ ['"']))).toList
    rwa [unquoted_quoted, String.toList_ofList]
  | real text => trivial
  | boolTrue => trivial
  | boolFalse => trivial
  | null => trivial

theorem isIdentifier_ofList {n : List Char} (h : IsIdent n) : IsIdentifier (String.ofList n) := by
  rwa [IsIdentifier, String.toList_ofList]

theorem writableField_of_read {f : FieldPair} (h : ReadItem (.field f)) :
    WritableField (parseFieldDef lib f) := by
  refine ⟨isIdentifier_ofList h.1, ?_⟩
  intro d hd
  obtain ⟨p, hp, rfl⟩ := Option.map_eq_some_iff.mp hd
  exact writable_parseDefaultValue lib (h.2 p hp)

theorem writable_columns {columns : List (List Char)}
    (h : columns ≠ [] ∧ ∀ c ∈ columns, IsIdent c) :
    columns.map String.ofList ≠ [] ∧ ∀ c ∈ columns.map String.ofList, IsIdentifier c := by
  refine ⟨by simpa using h.1, ?_⟩
  intro c hc
  obtain ⟨n, hn, rfl⟩ := List.mem_map.mp hc
  exact isIdentifier_ofList (h.2 n hn)

theorem parseU64_lt {text : List Char} {n : ℕ} (h : parseU64 text = some n) : n < 2 ^ 64 := by
  unfold parseU64 at h
  split at h
  · exact absurd h (by simp)
  · split at h
    · next hlt => exact Option.some.inj h ▸ hlt
    · exact absurd h (by simp)

theorem writableTable_of_read {t : TablePair} (h : ReadTable t) :
    WritableTable (parseTableDef lib t) := by
  refine ⟨isIdentifier_ofList h.ident, ?_, ?_, ?_⟩
  · intro n hn
    change parseCompactionDirective t.compaction = .aggressive n at hn
    cases hc : t.compaction with
    | none =>
      rw [hc] at hn
      exact absurd hn (by simp [parseCompactionDirective])
    | some text =>
      rw [hc, parseCompactionDirective] at hn
      cases hu : parseU64 text with
      | none =>
        rw [hu] at hn
        exact absurd hn (by simp)
      | some k =>
        rw [hu] at hn
        obtain rfl := CompactionPolicy.aggressive.inj hn
        exact parseU64_lt hu
  · intro f hf
    obtain ⟨item, hitem, hread⟩ := List.mem_filterMap.mp hf
    cases item with
    | field p =>
      obtain rfl := Option.some.inj hread
      exact writableField_of_read lib (h.items _ hitem)
    | primaryKey columns => exact absurd hread (by simp)
    | unique columns => exact absurd hread (by simp)
  · intro c hc
    obtain ⟨item, hitem, hread⟩ := List.mem_filterMap.mp hc
    cases item with
    | field p => exact absurd hread (by simp)
    | primaryKey columns =>
      obtain rfl := Option.some.inj hread
      exact writable_columns (h.items _ hitem)
    | unique columns =>
      obtain rfl := Option.some.inj hread
      exact writable_columns (h.items _ hitem)

theorem writableSchema_of_parse {source : String} {s : Schema}
    (h : parse lib source = .ok s) : WritableSchema s := by
  rw [parse] at h
  cases hp : schema source.toList with
  | none =>
    rw [hp] at h
    exact absurd h (by simp)
  | some p =>
    rw [hp] at h
    obtain rfl := Except.ok.inj h
    obtain ⟨cs1, -, hp⟩ := Option.bind_eq_some_iff.mp hp
    obtain ⟨cs2, -, hp⟩ := Option.bind_eq_some_iff.mp hp
    obtain ⟨⟨version, cs3⟩, hversion, hp⟩ := Option.bind_eq_some_iff.mp hp
    obtain ⟨cs4, -, hp⟩ := Option.bind_eq_some_iff.mp hp
    split at hp
    · obtain rfl := Option.some.inj hp
      refine ⟨?_, ?_⟩
      · obtain ⟨cs5, -, hversion⟩ := Option.bind_eq_some_iff.mp hversion
        obtain ⟨cs6, -, hversion⟩ := Option.bind_eq_some_iff.mp hversion
        obtain ⟨v, rfl, hv⟩ := stringLiteral_shape hversion
        rwa [unquoted_quoted, String.toList_ofList]
      · intro t ht
        obtain ⟨u, hu, rfl⟩ := List.mem_map.mp ht
        exact writableTable_of_read lib (forall_mem_many readTable_of_tableDef u hu)
    · exact absurd hp (by simp)

end TirBase.SchemaText
