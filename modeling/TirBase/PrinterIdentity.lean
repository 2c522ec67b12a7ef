import TirBase.CoreHandle
import TirBase.ReadSchemas

/-! # What the printer and the parser make of a registered definition -/
namespace TirBase.PrinterIdentity
open SchemaText CoreHandle

/-- Printing and parsing a definition gives it back; so its hash stays, the check of the version
path accepts it and the map of the definitions holds it. -/
structure RoundTrips (text : TextLibraries) (lib : CoreLibraries) (s : Schema) : Prop where
  parsed : parse text (print text s) = .ok s
  hash : ∀ reparsed, parse text (print text s) = .ok reparsed →
    reparsed.identifierHash lib.toIdentityLibraries = s.identifierHash lib.toIdentityLibraries
  verified : ∀ (m : SchemaMigrationEngine) (δ : MigrationDelta),
    δ.sourceSchemaHash = m.localSchemaHash →
    SchemaMigrationEngine.nextVersion m.versionPath δ.sourceSchemaHash =
      some δ.targetSchemaHash →
    m.schemaDefinitions.lookup δ.targetSchemaHash = some s →
    s.identifierHash lib.toIdentityLibraries = δ.targetSchemaHash →
    m.verifyVersionPath lib.toMigrationLibraries δ = .ok ()
  registered : ∀ definitions : List Schema, s ∈ definitions →
    (s.identifierHash lib.toIdentityLibraries, s) ∈ buildSchemaDefMap lib definitions

variable {text : TextLibraries} {lib : CoreLibraries} {s : Schema}

theorem verifyVersionPath_of_reparse (h : lib.reparseSchema s = .ok s)
    {m : SchemaMigrationEngine} {δ : MigrationDelta}
    (hsource : δ.sourceSchemaHash = m.localSchemaHash)
    (hnext : SchemaMigrationEngine.nextVersion m.versionPath δ.sourceSchemaHash =
      some δ.targetSchemaHash)
    (hs : m.schemaDefinitions.lookup δ.targetSchemaHash = some s)
    (hhash : s.identifierHash lib.toIdentityLibraries = δ.targetSchemaHash) :
    m.verifyVersionPath lib.toMigrationLibraries δ = .ok () := by
  rw [SchemaMigrationEngine.verifyVersionPath, if_neg (not_not.mpr hsource),
    if_neg (not_not.mpr hnext), hs]
  simp only [h, hhash]
  exact if_neg (not_not.mpr rfl)

theorem mem_buildSchemaDefMap (h : lib.reparseSchema s = .ok s) {definitions : List Schema}
    (hs : s ∈ definitions) :
    (s.identifierHash lib.toIdentityLibraries, s) ∈ buildSchemaDefMap lib definitions := by
  rw [buildSchemaDefMap, List.mem_reverse, List.mem_filterMap]
  exact ⟨s, hs, by rw [h]⟩

theorem roundTrips_of_parsed
    (hlib : ∀ s, lib.reparseSchema s = (parse text (print text s)).mapError List.length)
    (h : parse text (print text s) = .ok s) : RoundTrips text lib s := by
  have hre : lib.reparseSchema s = .ok s := by
    rw [hlib, h]
    rfl
  refine ⟨h, ?_, ?_, ?_⟩
  · intro reparsed hr
    rw [Except.ok.inj (hr.symm.trans h)]
  · intro m δ hsource hnext hs hhash
    exact verifyVersionPath_of_reparse hre hsource hnext hs hhash
  · intro definitions hs
    exact mem_buildSchemaDefMap hre hs

/-- A definition survives exactly when its doubles are finite and no field of it takes the front
of the next field's name for a modifier. -/
theorem roundTrips_iff (htext : ReadsBack text)
    (hlib : ∀ s, lib.reparseSchema s = (parse text (print text s)).mapError List.length)
    (hs : (∃ source, parse text source = .ok s) ∨ WritableSchema s) :
    RoundTrips text lib s ↔ ∀ t ∈ s.tables, TableReadsBack t := by
  have hw : WritableSchema s := by
    rcases hs with ⟨source, hsource⟩ | hs
    · exact writableSchema_of_parse text hsource
    · exact hs
  constructor
  · intro h
    exact kept_of_parse_print text htext hw h.parsed
  · intro h
    exact roundTrips_of_parsed hlib (parse_print_of_kept text htext hw h)

/-- Finite doubles shown as the number of their bits, which is right for zero. -/
def sampleTexts : TextLibraries where
  displayFloat f := if IsFinite f then toString f.val else "inf"
  parseFloat s := Fin.ofNat (2 ^ 64) (Nat.ofDigitChars 10 (s.toList.takeWhile Char.isDigit) 0)
  diagnose _ := ⟨1, 1, "expected schema"⟩

theorem sampleTexts_readsBack : ReadsBack sampleTexts := by
  have hdigits : ∀ n : ℕ, ∀ d ∈ Nat.toDigits 10 n, d.isDigit = true :=
    fun n d hd => Nat.isDigit_of_mem_toDigits (by omega) (by omega) hd
  have hshow : ∀ f, IsFinite f →
      (sampleTexts.displayFloat f).toList = Nat.toDigits 10 f.val := by
    intro f hf
    have hdisplay : sampleTexts.displayFloat f = toString f.val := if_pos hf
    rw [hdisplay]
    exact Nat.toList_repr
  have hread : ∀ (f : Fin (2 ^ 64)) (s : String), s.toList.takeWhile Char.isDigit =
      Nat.toDigits 10 f.val → sampleTexts.parseFloat s = f := by
    intro f s hs
    have hparse : sampleTexts.parseFloat s =
        Fin.ofNat (2 ^ 64) (Nat.ofDigitChars 10 (s.toList.takeWhile Char.isDigit) 0) := rfl
    rw [hparse, hs, Nat.ofDigitChars_ten_toDigits]
    exact Fin.ofNat_val_eq_self f
  refine ⟨?_, ?_, ?_, ?_⟩
  · intro f hf
    refine ⟨[], Nat.toDigits 10 f.val, [], ?_, fun d hd => absurd hd (by simp),
      Or.inl (hshow f hf)⟩
    exact ⟨rfl, Or.inl rfl, Nat.toDigits_ne_nil, hdigits f.val⟩
  · intro f hf
    have hdisplay : sampleTexts.displayFloat f = "inf" := if_neg hf
    rw [hdisplay]
    simp
  · intro f hf
    apply hread
    rw [hshow f hf]
    exact List.takeWhile_eq_self_iff.mpr (hdigits f.val)
  · intro f hf _
    apply hread
    rw [String.toList_append, hshow f hf, List.takeWhile_append_of_pos (hdigits f.val)]
    simp

def sampleLibraries : CoreLibraries :=
  { sampleCoreLibraries [] with
    reparseSchema := fun s => (parse sampleTexts (print sampleTexts s)).mapError List.length }

/-- Two fields that a constraint stands between, until the printer moves it behind them. -/
def absorbedSource : String :=
  "schema \x7b version = \"1.0.0\" table notes \x7b compaction = none " ++
    "a TEXT UNIQUE (a) NOTNULLb TEXT \x7d \x7d"

def absorbedSchema : Schema :=
  ⟨[⟨"notes", [⟨"a", .text, true, none⟩, ⟨"NOTNULLb", .text, true, none⟩], .none,
    [.unique ["a"]]⟩], "1.0.0"⟩

/-- The field that the front of the next one's name made mandatory, and the rest of that name. -/
def alteredSchema : Schema :=
  ⟨[⟨"notes", [⟨"a", .text, false, none⟩, ⟨"b", .text, true, none⟩], .none,
    [.unique ["a"]]⟩], "1.0.0"⟩

theorem next_name_absorbed :
    parse sampleTexts absorbedSource = .ok absorbedSchema ∧
      parse sampleTexts (print sampleTexts absorbedSchema) = .ok alteredSchema ∧
      absorbedSchema ≠ alteredSchema ∧
      absorbedSchema.hashedBytes ≠ alteredSchema.hashedBytes := by
  decide +kernel

def keptSchema : Schema :=
  ⟨[⟨"notes", [⟨"a", .text, false, none⟩, ⟨"score", .real, true, some (.real 0)⟩,
    ⟨"NOTNULLb", .text, true, none⟩], .aggressive 5, [.primaryKey ["a", "score"]]⟩], "1.0.0"⟩

theorem kept_roundTrips : RoundTrips sampleTexts sampleLibraries keptSchema := by
  have hlib : ∀ s, sampleLibraries.reparseSchema s =
      (parse sampleTexts (print sampleTexts s)).mapError List.length := fun _ => rfl
  have hsource : parse sampleTexts (print sampleTexts keptSchema) = .ok keptSchema := by
    decide +kernel
  refine (roundTrips_iff sampleTexts_readsBack hlib (Or.inl ⟨_, hsource⟩)).mpr ?_
  intro t ht
  obtain rfl := List.mem_singleton.mp ht
  refine ⟨?_, ?_⟩
  · intro f hf d hd
    simp only [List.mem_cons, List.not_mem_nil, or_false] at hf
    rcases hf with rfl | rfl | rfl
    · exact absurd hd (by simp)
    · obtain rfl := Option.some.inj hd
      exact (by decide : IsFinite 0)
    · exact absurd hd (by simp)
  · refine .cons_cons ?_ (.cons_cons ?_ (.singleton _))
    · rintro ⟨-, ⟨h, -⟩ | ⟨v, hv, -⟩⟩
      · exact absurd h (by simp)
      · exact absurd hv (by simp)
    · rintro ⟨h, -⟩
      exact absurd h (by simp)

end TirBase.PrinterIdentity
