import TirBase.ReadSchemas

/-! # The tokens of a schema

What the rules of the grammar match, written down token by token, is the text that they read. -/
namespace TirBase.SchemaText
open Peg

def DefaultPair.tokens : DefaultPair → List (List Char)
  | .real text => [text]
  | .integer text => [text]
  | .string text => [text]
  | .boolTrue => ["true".toList]
  | .boolFalse => ["false".toList]
  | .null => ["null".toList]

def FieldPair.tokens (f : FieldPair) : List (List Char) :=
  [f.ident, f.fieldType] ++
    (if f.notNullModifier then ["NOT".toList, "NULL".toList] else []) ++
      f.defaultModifier.elim [] fun d => "DEFAULT".toList :: d.tokens

def columnTokens : List (List Char) → List (List Char)
  | [] => ["(".toList, ")".toList]
  | c :: cs => ["(".toList, c] ++ cs.flatMap (fun c => [",".toList, c]) ++ [")".toList]

def ItemPair.tokens : ItemPair → List (List Char)
  | .primaryKey columns => ["PRIMARY".toList, "KEY".toList] ++ columnTokens columns
  | .unique columns => "UNIQUE".toList :: columnTokens columns
  | .field f => f.tokens

def policyTokens : Option (List Char) → List (List Char)
  | none => ["none".toList]
  | some threshold => ["aggressive".toList, "(".toList, threshold, ")".toList]

def TablePair.tokens (t : TablePair) : List (List Char) :=
  ["table".toList, t.ident, "\x7b".toList] ++
    (["compaction".toList, "=".toList] ++ policyTokens t.compaction) ++
    t.items.flatMap ItemPair.tokens ++ ["\x7d".toList]

def SchemaPair.tokens (s : SchemaPair) : List (List Char) :=
  ["schema".toList, "\x7b".toList, "version".toList, "=".toList, s.version] ++
    s.tables.flatMap TablePair.tokens ++ ["\x7d".toList]

section Tokens
variable {cs text rest : List Char}

theorem text_of_ident (h : ident cs = some (text, rest)) : cs = text ++ rest := by
  cases cs with
  | nil => exact absurd h (by simp [ident])
  | cons c cs =>
    rw [ident] at h
    split at h
    · obtain ⟨rfl, rfl⟩ := Prod.mk.inj (Option.some.inj h)
      rw [List.cons_append, List.takeWhile_append_dropWhile]
    · exact absurd h (by simp)

theorem text_of_digits (h : digits cs = some (text, rest)) : cs = text ++ rest := by
  rw [digits] at h
  split at h
  · exact absurd h (by simp)
  · obtain ⟨rfl, rfl⟩ := Prod.mk.inj (Option.some.inj h)
    exact List.takeWhile_append_dropWhile.symm

theorem text_of_integerLiteral (h : integerLiteral cs = some (text, rest)) : cs = text ++ rest := by
  rw [integerLiteral] at h
  split at h
  · next cs' hsign =>
    obtain ⟨⟨ds, rest'⟩, hds, heq⟩ := Option.map_eq_some_iff.mp h
    obtain ⟨rfl, rfl⟩ := Prod.mk.inj heq
    rw [literal_eq_some_iff.mp hsign, text_of_digits hds]
    rfl
  · exact text_of_digits h

theorem text_of_realLiteral (h : realLiteral cs = some (text, rest)) : cs = text ++ rest := by
  obtain ⟨⟨whole, cs1⟩, hwhole, h⟩ := Option.bind_eq_some_iff.mp h
  obtain ⟨cs2, hpoint, h⟩ := Option.bind_eq_some_iff.mp h
  obtain ⟨rfl, rfl⟩ := Prod.mk.inj (Option.some.inj h)
  rw [text_of_integerLiteral hwhole, literal_eq_some_iff.mp hpoint, List.append_assoc,
    List.cons_append, List.takeWhile_append_dropWhile]
  rfl

theorem text_of_stringLiteral (h : stringLiteral cs = some (text, rest)) : cs = text ++ rest := by
  obtain ⟨cs1, hopen, h⟩ := Option.bind_eq_some_iff.mp h
  obtain ⟨cs2, hclose, h⟩ := Option.bind_eq_some_iff.mp h
  obtain ⟨rfl, rfl⟩ := Prod.mk.inj (Option.some.inj h)
  have hquoted : cs1 = cs1.takeWhile (· != '"') ++ ('"' :: cs2) := by
    have hrest := literal_eq_some_iff.mp hclose
    have hsplit := List.takeWhile_append_dropWhile (p := (· != '"')) (l := cs1)
    rw [hrest] at hsplit
    exact hsplit.symm
  rw [literal_eq_some_iff.mp hopen]
  simp only [List.cons_append, List.append_assoc, List.nil_append]
  exact congrArg (List.cons '"') hquoted

theorem text_of_fieldType (h : fieldType cs = some (text, rest)) : cs = text ++ rest := by
  obtain ⟨s, -, h⟩ := List.exists_of_findSome?_eq_some h
  obtain ⟨cs', hkey, heq⟩ := Option.map_eq_some_iff.mp h
  obtain ⟨rfl, rfl⟩ := Prod.mk.inj heq
  exact literal_eq_some_iff.mp hkey

end Tokens

theorem reads_keyword {α : Type} (s : String) {a : α} {tokens : α → List (List Char)}
    (ha : tokens a = [s.toList]) :
    Reads skip (fun cs => (keyword s cs).map fun cs => (a, cs)) tokens := by
  intro cs b rest h
  obtain ⟨cs', hkey, heq⟩ := Option.map_eq_some_iff.mp h
  obtain ⟨rfl, rfl⟩ := Prod.mk.inj heq
  rw [ha]
  exact spells_literal hkey

theorem reads_defaultValue : Reads skip defaultValue DefaultPair.tokens := by
  have hreal : Reads skip realLiteral fun text => [text] :=
    fun _ _ _ h => spells_token (text_of_realLiteral h)
  have hinteger : Reads skip integerLiteral fun text => [text] :=
    fun _ _ _ h => spells_token (text_of_integerLiteral h)
  have hstring : Reads skip stringLiteral fun text => [text] :=
    fun _ _ _ h => spells_token (text_of_stringLiteral h)
  have hword : ∀ (s : String) (d : DefaultPair), d.tokens = [s.toList] →
      Reads skip (fun cs => (keyword s cs).map fun cs => (d, cs)) DefaultPair.tokens :=
    fun s _ hd => reads_keyword s hd
  apply Reads.orElse (hreal.map fun _ => rfl)
  apply Reads.orElse (hinteger.map fun _ => rfl)
  apply Reads.orElse (hstring.map fun _ => rfl)
  apply Reads.orElse (hword "true" .boolTrue rfl)
  apply Reads.orElse (hword "false" .boolFalse rfl)
  exact hword "null" .null rfl

theorem reads_notNullModifier :
    Reads skip notNullModifier fun _ => ["NOT".toList, "NULL".toList] := by
  intro cs a rest h
  obtain ⟨cs1, hnot, h⟩ := Option.bind_eq_some_iff.mp h
  obtain ⟨cs2, hnull, h⟩ := Option.bind_eq_some_iff.mp h
  obtain ⟨-, rfl⟩ := Prod.mk.inj (Option.some.inj h)
  exact (spells_literal hnot).append (spells_literal hnull)

theorem reads_defaultModifier :
    Reads skip defaultModifier fun d => "DEFAULT".toList :: d.tokens := by
  intro cs d rest h
  obtain ⟨cs1, hkey, h⟩ := Option.bind_eq_some_iff.mp h
  exact (spells_literal hkey).append (reads_defaultValue _ _ _ h)

theorem reads_fieldDef : Reads skip fieldDef FieldPair.tokens := by
  intro cs f rest h
  obtain ⟨⟨name, cs1⟩, hname, h⟩ := Option.bind_eq_some_iff.mp h
  obtain ⟨⟨type, cs2⟩, htype, h⟩ := Option.bind_eq_some_iff.mp h
  dsimp only at h
  obtain ⟨rfl, rfl⟩ := Prod.mk.inj (Option.some.inj h)
  have hnames : Spells skip [name, type] cs cs2 :=
    (spells_token (text_of_ident hname)).append (spells_token (text_of_fieldType htype))
  have hnot := reads_notNullModifier.attempt skip_skip cs2
  have hdefault := reads_defaultModifier.attempt skip_skip
    (attempt notNullModifier (skip cs2)).2
  have hmodifier : (attempt notNullModifier (skip cs2)).1.elim []
      (fun _ => ["NOT".toList, "NULL".toList]) =
        if (attempt notNullModifier (skip cs2)).1.isSome then ["NOT".toList, "NULL".toList]
        else [] := by
    cases (attempt notNullModifier (skip cs2)).1 <;> rfl
  rw [hmodifier] at hnot
  exact (hnames.append hnot).append hdefault

theorem reads_nextColumn : Reads skip nextColumn fun c => [",".toList, c] := by
  intro cs c rest h
  obtain ⟨cs1, hkey, h⟩ := Option.bind_eq_some_iff.mp h
  exact (spells_literal hkey).append (spells_token (text_of_ident h))

theorem reads_columnList : Reads skip columnList columnTokens := by
  intro cs columns rest h
  obtain ⟨cs1, hopen, h⟩ := Option.bind_eq_some_iff.mp h
  obtain ⟨⟨column, cs2⟩, hcolumn, h⟩ := Option.bind_eq_some_iff.mp h
  obtain ⟨cs3, hclose, h⟩ := Option.bind_eq_some_iff.mp h
  obtain ⟨rfl, rfl⟩ := Prod.mk.inj (Option.some.inj h)
  have hfirst : Spells skip ["(".toList, column] cs cs2 :=
    (spells_literal hopen).append (spells_token (text_of_ident hcolumn))
  exact (hfirst.append (reads_nextColumn.many cs2.length cs2)).append (spells_literal hclose)

theorem reads_tableItem : Reads skip tableItem ItemPair.tokens := by
  have hprimary : Reads skip primaryKeyConstraint ItemPair.tokens := by
    intro cs item rest h
    obtain ⟨cs1, hfirst, h⟩ := Option.bind_eq_some_iff.mp h
    obtain ⟨cs2, hsecond, h⟩ := Option.bind_eq_some_iff.mp h
    obtain ⟨⟨columns, cs3⟩, hcolumns, h⟩ := Option.bind_eq_some_iff.mp h
    obtain ⟨rfl, rfl⟩ := Prod.mk.inj (Option.some.inj h)
    have hkeys : Spells skip ["PRIMARY".toList, "KEY".toList] cs cs2 :=
      (spells_literal hfirst).append (spells_literal hsecond)
    exact hkeys.append (reads_columnList _ _ _ hcolumns)
  have hunique : Reads skip uniqueConstraint ItemPair.tokens := by
    intro cs item rest h
    obtain ⟨cs1, hfirst, h⟩ := Option.bind_eq_some_iff.mp h
    obtain ⟨⟨columns, cs2⟩, hcolumns, h⟩ := Option.bind_eq_some_iff.mp h
    obtain ⟨rfl, rfl⟩ := Prod.mk.inj (Option.some.inj h)
    exact (spells_literal hfirst).append (reads_columnList _ _ _ hcolumns)
  exact hprimary.orElse (hunique.orElse (reads_fieldDef.map fun _ => rfl))

theorem reads_compactionAggressive :
    Reads skip compactionAggressive fun threshold => policyTokens (some threshold) := by
  intro cs text rest h
  obtain ⟨cs1, hfirst, h⟩ := Option.bind_eq_some_iff.mp h
  obtain ⟨cs2, hopen, h⟩ := Option.bind_eq_some_iff.mp h
  obtain ⟨⟨threshold, cs3⟩, hnumber, h⟩ := Option.bind_eq_some_iff.mp h
  obtain ⟨cs4, hclose, h⟩ := Option.bind_eq_some_iff.mp h
  obtain ⟨rfl, rfl⟩ := Prod.mk.inj (Option.some.inj h)
  have hbefore : Spells skip ["aggressive".toList, "(".toList] cs cs2 :=
    (spells_literal hfirst).append (spells_literal hopen)
  have hafter : Spells skip [threshold, ")".toList] cs2 cs4 :=
    (spells_token (text_of_integerLiteral hnumber)).append (spells_literal hclose)
  exact hbefore.append hafter

theorem reads_compactionDirective : Reads skip compactionDirective fun threshold =>
    ["compaction".toList, "=".toList] ++ policyTokens threshold := by
  intro cs threshold rest h
  obtain ⟨cs1, hkey, h⟩ := Option.bind_eq_some_iff.mp h
  obtain ⟨cs2, hequals, h⟩ := Option.bind_eq_some_iff.mp h
  have hbefore : Spells skip ["compaction".toList, "=".toList] cs cs2 :=
    (spells_literal hkey).append (spells_literal hequals)
  have haggressive : Reads skip (fun cs => (compactionAggressive cs).map fun x =>
      (some x.1, x.2)) policyTokens := reads_compactionAggressive.map fun _ => rfl
  have hnone : Reads skip (fun cs => (keyword "none" cs).map fun cs => (none, cs)) policyTokens :=
    reads_keyword "none" rfl
  exact hbefore.append (haggressive.orElse hnone _ _ _ h)

theorem reads_tableDef : Reads skip tableDef TablePair.tokens := by
  intro cs t rest h
  obtain ⟨cs1, hkey, h⟩ := Option.bind_eq_some_iff.mp h
  obtain ⟨⟨name, cs2⟩, hname, h⟩ := Option.bind_eq_some_iff.mp h
  obtain ⟨cs3, hopen, h⟩ := Option.bind_eq_some_iff.mp h
  obtain ⟨⟨policy, cs4⟩, hpolicy, h⟩ := Option.bind_eq_some_iff.mp h
  obtain ⟨cs5, hclose, h⟩ := Option.bind_eq_some_iff.mp h
  obtain ⟨rfl, rfl⟩ := Prod.mk.inj (Option.some.inj h)
  have hhead : Spells skip ["table".toList, name, "\x7b".toList] cs cs3 :=
    ((spells_literal hkey).append (spells_token (text_of_ident hname))).append
      (spells_literal hopen)
  have hbody := (hhead.append (reads_compactionDirective _ _ _ hpolicy)).append
    (reads_tableItem.many cs4.length cs4)
  exact hbody.append (spells_literal hclose)

/-- A text that the grammar accepts is made of the tokens of its schema, in their order, with
nothing but blanks between and behind them. -/
theorem spells_schema {cs : List Char} {s : SchemaPair} (h : schema cs = some s) :
    Spells skip s.tokens cs [] := by
  obtain ⟨cs1, hkey, h⟩ := Option.bind_eq_some_iff.mp h
  obtain ⟨cs2, hopen, h⟩ := Option.bind_eq_some_iff.mp h
  obtain ⟨⟨version, cs3⟩, hversion, h⟩ := Option.bind_eq_some_iff.mp h
  obtain ⟨cs4, hclose, h⟩ := Option.bind_eq_some_iff.mp h
  split at h
  · next hend =>
    obtain rfl := Option.some.inj h
    obtain ⟨cs5, hword, hversion⟩ := Option.bind_eq_some_iff.mp hversion
    obtain ⟨cs6, hequals, hversion⟩ := Option.bind_eq_some_iff.mp hversion
    have hhead : Spells skip ["schema".toList, "\x7b".toList] cs cs2 :=
      (spells_literal hkey).append (spells_literal hopen)
    have hdirective : Spells skip ["version".toList, "=".toList, version] cs2 cs3 :=
      ((spells_literal hword).append (spells_literal hequals)).append
        (spells_token (text_of_stringLiteral hversion))
    have hbody := (hhead.append hdirective).append (reads_tableDef.many cs3.length cs3)
    have hall := hbody.append (spells_literal hclose)
    have hblank : Spells skip [] cs4 [] := List.isEmpty_iff.mp hend
    have hend := hall.append hblank
    rwa [List.append_nil] at hend
  · exact absurd h (by simp)

end TirBase.SchemaText
