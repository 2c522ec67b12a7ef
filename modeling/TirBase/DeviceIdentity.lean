import TirBase.LedgerSchemas
import TirBase.PositionalCodes

/-! # The identity of a device

A DID spells the public key of a device, and the key is kept in a file that every start of the device
reads. -/
namespace TirBase
open LedgerSchemas TransitionRuns

/-- The identity file: the keys are hexadecimal texts. -/
structure StoredIdentity where
  did : Did
  secretKeyHex : String
  publicKeyHex : String
  deriving DecidableEq

structure KeyLibraries extends IdentityLibraries where
  bs58Encode : Bytes → String
  hexEncode : Bytes → String
  hexDecode : String → Except String Bytes
  verifyingKey : KeyBytes → KeyBytes
  storedToString : StoredIdentity → String
  storedFromStr : String → Except String StoredIdentity

namespace KeyLibraries
variable (lib : KeyLibraries)

def prefixedKey (publicKey : KeyBytes) : Bytes := 0xed :: 0x01 :: publicKey.val

def deriveDid (publicKey : KeyBytes) : Did :=
  "did:key:z" ++ lib.bs58Encode (prefixedKey publicKey)

/-- Every base58 text is the encoding of the bytes it decodes to. -/
structure Base58 : Prop where
  decode_encode : ∀ bytes, lib.bs58Decode (lib.bs58Encode bytes) = .ok bytes
  encode_decode : ∀ text bytes, lib.bs58Decode text = .ok bytes → lib.bs58Encode bytes = text

variable {lib}

theorem resolveDid_append (text : String) : lib.resolveDid ("did:key:z" ++ text) =
    match lib.bs58Decode text with
    | .error e => .error (.didResolutionFailed ("did:key:z" ++ text) s!"base58btc decode error: {e}")
    | .ok (0xed :: 0x01 :: keyBytes) =>
      if h : keyBytes.length = 32 then .ok ⟨keyBytes, h⟩
      else
        let got := keyBytes.length
        .error (.didResolutionFailed ("did:key:z" ++ text)
          s!"expected 32-byte public key, got {got} bytes")
    | .ok _ => .error (.didResolutionFailed ("did:key:z" ++ text)
        "not an ed25519 did:key (wrong multicodec prefix)") := by
  have hprefix : "did:key:z".toList.isPrefixOf ("did:key:z" ++ text).toList = true := by
    rw [List.isPrefixOf_iff_prefix, String.toList_append]
    exact List.prefix_append _ _
  have hrest : String.ofList (("did:key:z" ++ text).toList.drop "did:key:z".length) = text := by
    rw [String.toList_append, show "did:key:z".length = "did:key:z".toList.length from rfl,
      List.drop_left, String.ofList_toList]
  rw [IdentityLibraries.resolveDid, if_pos hprefix]
  generalize String.ofList (("did:key:z" ++ text).toList.drop "did:key:z".length) = rest at hrest ⊢
  subst hrest
  rfl

theorem resolveDid_deriveDid {publicKey : KeyBytes}
    (h : lib.bs58Decode (lib.bs58Encode (prefixedKey publicKey)) = .ok (prefixedKey publicKey)) :
    lib.resolveDid (lib.deriveDid publicKey) = .ok publicKey := by
  rw [deriveDid, resolveDid_append, h]
  exact dif_pos publicKey.property

/-- The symbols of base58 are the digits and letters without `0`, `O`, `I` and `l`. -/
def base58 : PositionalCodes.Alphabet 58 where
  symbols := "123456789ABCDEFGHJKLMNPQRSTUVWXYZabcdefghijkmnopqrstuvwxyz".toList
  nodup := by decide
  length_eq := by decide

def hexDigits : List Char := "0123456789abcdef".toList

def hexText : Bytes → List Char
  | [] => []
  | b :: bytes => hexDigits.getD (b.val / 16) '0' :: hexDigits.getD (b.val % 16) '0' :: hexText bytes

def hexBytes : List Char → Except String Bytes
  | [] => .ok []
  | [_] => .error "Odd number of digits"
  | c :: d :: text =>
    if c ∈ hexDigits ∧ d ∈ hexDigits then
      (hexBytes text).map fun bytes =>
        Fin.ofNat 256 (16 * hexDigits.idxOf c + hexDigits.idxOf d) :: bytes
    else .error "Invalid character"

theorem hexDigit_idxOf {d : ℕ} (h : d < 16) :
    hexDigits.getD d '0' ∈ hexDigits ∧ hexDigits.idxOf (hexDigits.getD d '0') = d := by
  interval_cases d <;> decide

theorem hexBytes_hexText (bytes : Bytes) : hexBytes (hexText bytes) = .ok bytes := by
  induction bytes with
  | nil => rfl
  | cons b bytes ih =>
    obtain ⟨hhigh, hhighDigit⟩ := hexDigit_idxOf (d := b.val / 16) (by omega)
    obtain ⟨hlow, hlowDigit⟩ := hexDigit_idxOf (d := b.val % 16) (by omega)
    have hb : Fin.ofNat 256 (16 * (b.val / 16) + b.val % 16) = b := by
      rw [Nat.div_add_mod]
      exact Fin.ofNat_val_eq_self b
    rw [hexText, hexBytes, if_pos ⟨hhigh, hlow⟩, ih, hhighDigit, hlowDigit, Except.map, hb]

def storedJson (s : StoredIdentity) : String :=
  "\x7b\n  \"did\": \"" ++ s.did ++ "\",\n  \"secret_key_hex\": \"" ++ s.secretKeyHex ++
    "\",\n  \"public_key_hex\": \"" ++ s.publicKeyHex ++ "\"\n\x7d"

def sampleKeyLibraries (files : List StoredIdentity) : KeyLibraries where
  toIdentityLibraries := { (CrdtEngine.sampleLibraries []).toIdentityLibraries with
    bs58Decode := fun text =>
      match base58.read? 256 text.toList with
      | some bytes => .ok bytes
      | none => .error "provided string contained invalid character" }
  bs58Encode bytes := String.ofList (base58.spell 256 bytes)
  hexEncode bytes := String.ofList (hexText bytes)
  hexDecode text := hexBytes text.toList
  verifyingKey seed := seed
  storedToString := storedJson
  storedFromStr text :=
    match files.find? fun s => storedJson s = text with
    | some s => .ok s
    | none => .error "EOF while parsing a value at line 1 column 0"

theorem sampleKeyLibraries_base58 (files : List StoredIdentity) :
    (sampleKeyLibraries files).Base58 := by
  constructor
  · intro bytes
    change (match base58.read? 256 (String.ofList (base58.spell 256 bytes)).toList with
      | some bytes => Except.ok bytes
      | none => .error _) = _
    rw [String.toList_ofList, PositionalCodes.Alphabet.read?_spell (by omega) (by omega)]
  · intro text bytes h
    change (match base58.read? 256 text.toList with
      | some bytes => Except.ok bytes
      | none => .error _) = _ at h
    split at h
    · rename_i bytes' hread
      cases h
      change String.ofList (base58.spell 256 bytes) = text
      rw [PositionalCodes.Alphabet.spell_of_read? (by omega) (by omega) hread, String.ofList_toList]
    · cases h

theorem hexDecode_hexEncode (files : List StoredIdentity) (bytes : Bytes) :
    (sampleKeyLibraries files).hexDecode ((sampleKeyLibraries files).hexEncode bytes) =
      .ok bytes := by
  change hexBytes (String.ofList (hexText bytes)).toList = .ok bytes
  rw [String.toList_ofList, hexBytes_hexText]

/-- A DID resolves to a key exactly when it is the one that the key derives: no other spelling leads to
the key. -/
theorem resolveDid_eq_ok_iff (lib : KeyLibraries) (hbase58 : lib.Base58) (did : Did)
    (publicKey : KeyBytes) :
    lib.resolveDid did = .ok publicKey ↔ did = lib.deriveDid publicKey := by
  constructor
  · intro h
    have hprefix : "did:key:z".toList.isPrefixOf did.toList = true := by
      unfold IdentityLibraries.resolveDid at h
      split_ifs at h with hprefix
      exact hprefix
    obtain ⟨rest, hrest⟩ := List.isPrefixOf_iff_prefix.mp hprefix
    obtain ⟨text, rfl⟩ : ∃ text, did = "did:key:z" ++ text := by
      refine ⟨String.ofList rest, String.toList_inj.mp ?_⟩
      have htext : ("did:key:z" ++ String.ofList rest).toList = "did:key:z".toList ++ rest := by
        rw [String.toList_append, @String.toList_ofList rest]
      exact hrest.symm.trans htext.symm
    rw [resolveDid_append] at h
    split at h
    · cases h
    · rename_i keyBytes hdecode
      split_ifs at h with hlength
      cases h
      rw [deriveDid, prefixedKey, hbase58.encode_decode text _ hdecode]
    · cases h
  · rintro rfl
    exact resolveDid_deriveDid (hbase58.decode_encode _)

theorem resolveDid_eq_ok_iff_sample :
    (sampleKeyLibraries []).resolveDid CrdtEngine.sampleDid₁ =
      .ok (CrdtEngine.sampleKey 1) :=
  (resolveDid_eq_ok_iff _ (sampleKeyLibraries_base58 _) _ _).mpr (by decide +kernel)

end KeyLibraries

structure IdentityManager where
  did : Did
  signingKey : KeyBytes
  deriving DecidableEq

abbrev IdentityFile := Option String

structure StartEnvironment where
  seed : Except String KeyBytes
  readFault : Option String
  writeFault : Option (String × IdentityFile)
  deriving DecidableEq

namespace IdentityManager
variable (lib : KeyLibraries) (path : String)

def persistIdentityTo (did : Did) (keypairBytes : Bytes) (env : StartEnvironment)
    (file : IdentityFile) : Except TirBaseError Unit × IdentityFile :=
  if keypairBytes.length < 32 then
    (.error (.localStoreWriteFailed "keypair_bytes must be at least 32 bytes (secret key seed)"),
      file)
  else
    let publicKeyHex :=
      if 64 ≤ keypairBytes.length then lib.hexEncode ((keypairBytes.drop 32).take 32)
      else
        match lib.resolveDid did with
        | .ok publicKey => lib.hexEncode publicKey.val
        | .error _ => lib.hexEncode (List.replicate 32 0)
    let json := lib.storedToString ⟨did, lib.hexEncode (keypairBytes.take 32), publicKeyHex⟩
    match env.writeFault with
    | some (e, left) => (.error (.localStoreWriteFailed s!"write to {path} failed: {e}"), left)
    | none => (.ok (), some json)

def loadIdentityFrom (env : StartEnvironment) (file : IdentityFile) :
    Except TirBaseError (Option (Did × Bytes)) :=
  match file with
  | none => .ok none
  | some json =>
    match env.readFault with
    | some e => .error (.localStoreWriteFailed s!"read from {path} failed: {e}")
    | none =>
      match lib.storedFromStr json with
      | .error e => .error (.localStoreWriteFailed s!"JSON parse failed: {e}")
      | .ok stored =>
        match lib.hexDecode stored.secretKeyHex with
        | .error e => .error (.localStoreWriteFailed s!"hex decode of secret key failed: {e}")
        | .ok secretKey =>
          match lib.hexDecode stored.publicKeyHex with
          | .error e => .error (.localStoreWriteFailed s!"hex decode of public key failed: {e}")
          | .ok publicKey => .ok (some (stored.did, secretKey ++ publicKey))

def generate (env : StartEnvironment) (file : IdentityFile) :
    Except TirBaseError IdentityManager × IdentityFile :=
  match env.seed with
  | .error e => (.error (.signatureVerificationFailed s!"random bytes generation failed: {e}"), file)
  | .ok seed =>
    let publicKey := lib.verifyingKey seed
    let did := lib.deriveDid publicKey
    match persistIdentityTo lib path did (seed.val ++ publicKey.val) env file with
    | (.error e, file) => (.error e, file)
    | (.ok (), file) => (.ok ⟨did, seed⟩, file)

/-- `init_with_path`, for a device with an identity file. -/
def initWithPath (env : StartEnvironment) (file : IdentityFile) :
    Except TirBaseError IdentityManager × IdentityFile :=
  match loadIdentityFrom lib path env file with
  | .error e => (.error e, file)
  | .ok none => generate lib path env file
  | .ok (some (did, keypairBytes)) =>
    if h : 32 ≤ keypairBytes.length then
      (.ok ⟨did, ⟨keypairBytes.take 32, by rw [List.length_take, min_eq_left h]⟩⟩, file)
    else generate lib path env file

def identity (m : IdentityManager) : Identity := ⟨m.signingKey, lib.verifyingKey m.signingKey, m.did⟩

def step (file : IdentityFile) (env : StartEnvironment) : IdentityFile :=
  (initWithPath lib path env file).2

variable {lib path} {env : StartEnvironment} {file : IdentityFile} {m : IdentityManager}

/-- The key pair of a seed reads back from its texts, and what the seed signs verifies. -/
structure ReadsBack (lib : KeyLibraries) (seed : KeyBytes) : Prop where
  did : lib.bs58Decode (lib.bs58Encode (KeyLibraries.prefixedKey (lib.verifyingKey seed))) =
    .ok (KeyLibraries.prefixedKey (lib.verifyingKey seed))
  secretKey : lib.hexDecode (lib.hexEncode seed.val) = .ok seed.val
  publicKey : lib.hexDecode (lib.hexEncode (lib.verifyingKey seed).val) =
    .ok (lib.verifyingKey seed).val
  stored : ∀ stored : StoredIdentity, stored = ⟨lib.deriveDid (lib.verifyingKey seed),
      lib.hexEncode seed.val, lib.hexEncode (lib.verifyingKey seed).val⟩ →
    lib.storedFromStr (lib.storedToString stored) = .ok stored
  signs : ∀ payload, lib.verify (lib.verifyingKey seed) payload (lib.sign seed payload) = .ok ()

/-- A file from which every start that can read it takes this identity. -/
def Holds (lib : KeyLibraries) (path : String) (file : IdentityFile) (m : IdentityManager) : Prop :=
  ∀ env, (∃ e, initWithPath lib path env file = (.error e, file)) ∨
    initWithPath lib path env file = (.ok m, file)

def ofSeed (lib : KeyLibraries) (seed : KeyBytes) : IdentityManager :=
  ⟨lib.deriveDid (lib.verifyingKey seed), seed⟩

theorem initWithPath_of_loaded {did : Did} {keypairBytes : Bytes} (h : 32 ≤ keypairBytes.length)
    (hload : loadIdentityFrom lib path env file = .ok (some (did, keypairBytes))) :
    initWithPath lib path env file =
      (.ok ⟨did, ⟨keypairBytes.take 32, by rw [List.length_take, min_eq_left h]⟩⟩, file) := by
  simp only [initWithPath, hload, dif_pos h]

/-- What a file yields when it can be read, it yields whenever it can be read. -/
theorem holds_of_loaded {did : Did} {keypairBytes : Bytes} (h : 32 ≤ keypairBytes.length)
    (hload : loadIdentityFrom lib path env file = .ok (some (did, keypairBytes))) :
    Holds lib path file ⟨did, ⟨keypairBytes.take 32, by rw [List.length_take, min_eq_left h]⟩⟩ := by
  intro env'
  cases file with
  | none => cases hload
  | some json =>
    cases hfault : env'.readFault with
    | some e =>
      left
      exact ⟨_, by simp only [initWithPath, loadIdentityFrom, hfault]; rfl⟩
    | none =>
      right
      apply initWithPath_of_loaded h
      simp only [loadIdentityFrom] at hload ⊢
      cases hbefore : env.readFault with
      | some e =>
        rw [hbefore] at hload
        cases hload
      | none =>
        rw [hbefore] at hload
        rw [hfault]
        exact hload

theorem persistIdentityTo_pair (seed : KeyBytes) (env : StartEnvironment) (file : IdentityFile) :
    persistIdentityTo lib path (lib.deriveDid (lib.verifyingKey seed))
        (seed.val ++ (lib.verifyingKey seed).val) env file =
      match env.writeFault with
      | some (e, left) => (.error (.localStoreWriteFailed s!"write to {path} failed: {e}"), left)
      | none => (.ok (), some (lib.storedToString ⟨lib.deriveDid (lib.verifyingKey seed),
          lib.hexEncode seed.val, lib.hexEncode (lib.verifyingKey seed).val⟩)) := by
  have hseed := seed.property
  have hkey := (lib.verifyingKey seed).property
  have hlength : (seed.val ++ (lib.verifyingKey seed).val).length = 64 := by
    rw [List.length_append]
    omega
  have htake : (seed.val ++ (lib.verifyingKey seed).val).take 32 = seed.val :=
    List.take_left' hseed
  have hdrop : ((seed.val ++ (lib.verifyingKey seed).val).drop 32).take 32 =
      (lib.verifyingKey seed).val := by
    rw [List.drop_left' hseed, List.take_of_length_le hkey.le]
  rw [persistIdentityTo, hlength, if_neg (by omega), if_pos (by omega), htake, hdrop]

theorem generate_of_seed {seed : KeyBytes} (hseed : env.seed = .ok seed) :
    generate lib path env file =
      match env.writeFault with
      | some (e, left) => (.error (.localStoreWriteFailed s!"write to {path} failed: {e}"), left)
      | none => (.ok (ofSeed lib seed), some (lib.storedToString
          ⟨lib.deriveDid (lib.verifyingKey seed), lib.hexEncode seed.val,
            lib.hexEncode (lib.verifyingKey seed).val⟩)) := by
  simp only [generate, hseed, persistIdentityTo_pair]
  cases env.writeFault <;> rfl

theorem holds_of_generated {seed : KeyBytes} (hread : ReadsBack lib seed) :
    Holds lib path (some (lib.storedToString ⟨lib.deriveDid (lib.verifyingKey seed),
      lib.hexEncode seed.val, lib.hexEncode (lib.verifyingKey seed).val⟩)) (ofSeed lib seed) := by
  have hload : loadIdentityFrom lib path ⟨.ok seed, none, none⟩ (some (lib.storedToString
      ⟨lib.deriveDid (lib.verifyingKey seed), lib.hexEncode seed.val,
        lib.hexEncode (lib.verifyingKey seed).val⟩)) =
      .ok (some (lib.deriveDid (lib.verifyingKey seed), seed.val ++ (lib.verifyingKey seed).val)) := by
    simp only [loadIdentityFrom, hread.stored _ rfl, hread.secretKey, hread.publicKey]
  have hlength : 32 ≤ (seed.val ++ (lib.verifyingKey seed).val).length := by
    rw [List.length_append, seed.property]
    omega
  have hholds := holds_of_loaded hlength hload
  have htake : (seed.val ++ (lib.verifyingKey seed).val).take 32 = seed.val :=
    List.take_left' seed.property
  rwa [show (⟨_, ⟨_, _⟩⟩ : IdentityManager) = ofSeed lib seed from
    congrArg (IdentityManager.mk _) (Subtype.ext htake)] at hholds

theorem holds_of_ok (hseed : ∀ seed, env.seed = .ok seed → ReadsBack lib seed)
    (h : (initWithPath lib path env file).1 = .ok m) :
    Holds lib path (initWithPath lib path env file).2 m := by
  have hgenerated : ∀ hsame : initWithPath lib path env file = generate lib path env file,
      Holds lib path (initWithPath lib path env file).2 m := by
    intro hsame
    rw [hsame] at h ⊢
    cases hs : env.seed with
    | error e =>
      simp only [generate, hs] at h
      cases h
    | ok seed =>
      rw [generate_of_seed hs] at h ⊢
      cases hfault : env.writeFault with
      | some fault =>
        rw [hfault] at h
        cases h
      | none =>
        rw [hfault] at h
        cases h
        exact holds_of_generated (hseed seed hs)
  cases hload : loadIdentityFrom lib path env file with
  | error e =>
    simp only [initWithPath, hload] at h
    cases h
  | ok loaded =>
    cases loaded with
    | none => exact hgenerated (by simp only [initWithPath, hload])
    | some pair =>
      by_cases hlength : 32 ≤ pair.2.length
      · have hinit := initWithPath_of_loaded hlength hload
        rw [hinit] at h ⊢
        cases h
        exact holds_of_loaded hlength hload
      · exact hgenerated (by simp only [initWithPath, hload, dif_neg hlength])

/-- A file that no start takes an identity from, or one with the pair of a seed. -/
inductive Sound (lib : KeyLibraries) (path : String) : IdentityFile → Prop
  | absent : Sound lib path none
  | torn (json : String) (unreadable : ∃ e, lib.storedFromStr json = .error e) :
      Sound lib path (some json)
  | holds (file : IdentityFile) (seed : KeyBytes) (readsBack : ReadsBack lib seed)
      (held : Holds lib path file (ofSeed lib seed)) : Sound lib path file

/-- The random seed makes a pair that reads back, and a write that fails leaves the file as it was, or
torn. -/
structure Tears (lib : KeyLibraries) (file : IdentityFile) (env : StartEnvironment) : Prop where
  seed : ∀ seed, env.seed = .ok seed → ReadsBack lib seed
  left : ∀ e left, env.writeFault = some (e, left) →
    left = file ∨ ∃ json, left = some json ∧ ∃ e, lib.storedFromStr json = .error e

theorem Holds.step (h : Holds lib path file m) (env : StartEnvironment) :
    step lib path file env = file := by
  rcases h env with ⟨e, hinit⟩ | hinit
  · rw [IdentityManager.step, hinit]
  · rw [IdentityManager.step, hinit]

theorem Holds.run (h : Holds lib path file m) (envs : List StartEnvironment) :
    run (IdentityManager.step lib path) file envs = file := by
  induction envs with
  | nil => rfl
  | cons env envs ih => rw [run_cons, h.step env, ih]

theorem Holds.eq_of_ok {m' : IdentityManager} (h : Holds lib path file m)
    (hinit : (initWithPath lib path env file).1 = .ok m') : m' = m := by
  rcases h env with ⟨e, hsame⟩ | hsame
  · rw [hsame] at hinit
    cases hinit
  · rw [hsame] at hinit
    cases hinit
    rfl

theorem sound_step (h : Sound lib path file) (henv : Tears lib file env) :
    Sound lib path (step lib path file env) ∧
      ∀ m, (initWithPath lib path env file).1 = .ok m →
        ∃ seed, ReadsBack lib seed ∧ m = ofSeed lib seed := by
  cases h with
  | absent =>
    have hinit : initWithPath lib path env none = generate lib path env none := rfl
    rw [step, hinit]
    cases hs : env.seed with
    | error e =>
      simp only [generate, hs]
      exact ⟨.absent, fun m hm => by cases hm⟩
    | ok seed =>
      have hread := henv.seed seed hs
      rw [generate_of_seed hs]
      cases hfault : env.writeFault with
      | some fault =>
        refine ⟨?_, fun m hm => by cases hm⟩
        rcases henv.left fault.1 fault.2 hfault with hsame | ⟨json, hjson, htorn⟩
        · change Sound lib path fault.2
          rw [hsame]
          exact .absent
        · change Sound lib path fault.2
          rw [hjson]
          exact .torn json htorn
      | none =>
        refine ⟨.holds _ seed hread (holds_of_generated hread), fun m hm => ?_⟩
        cases hm
        exact ⟨seed, hread, rfl⟩
  | torn json unreadable =>
    obtain ⟨e, hparse⟩ := unreadable
    have hinit : ∃ err, initWithPath lib path env (some json) = (.error err, some json) := by
      cases hfault : env.readFault with
      | some e' => exact ⟨_, by simp only [initWithPath, loadIdentityFrom, hfault]; rfl⟩
      | none => exact ⟨_, by simp only [initWithPath, loadIdentityFrom, hfault, hparse]; rfl⟩
    obtain ⟨err, hinit⟩ := hinit
    rw [step, hinit]
    exact ⟨.torn json ⟨e, hparse⟩, fun m hm => by cases hm⟩
  | holds _ seed readsBack held =>
    rw [held.step env]
    exact ⟨.holds file seed readsBack held, fun m hm => ⟨seed, readsBack, held.eq_of_ok hm⟩⟩

theorem sound_run {envs : List StartEnvironment} (h : Sound lib path file)
    (henvs : Guarded (step lib path) (Tears lib) file envs) :
    Sound lib path (run (step lib path) file envs) := by
  have hstep : ∀ (file : IdentityFile) (env : StartEnvironment), Tears lib file env →
      Sound lib path file → Sound lib path (step lib path file env) :=
    fun file env henv h => (sound_step h henv).1
  exact guarded_run hstep henvs h

/-- The identity of the device, as the rest of the core relies on it. -/
theorem selfCertifying_ofSeed {seed : KeyBytes} (h : ReadsBack lib seed) :
    SelfCertifying lib.toIdentityLibraries (identity lib (ofSeed lib seed)) :=
  ⟨KeyLibraries.resolveDid_deriveDid h.did, h.signs⟩

/-- All starts of a device that succeed take the same identity, whatever fails between them, and its DID
encodes the key under which the device signs. -/
theorem identity_kept (lib : KeyLibraries) (path : String) (earlier between rest : List StartEnvironment)
    (first later : StartEnvironment) (m m' : IdentityManager)
    (henvs : Guarded (step lib path) (Tears lib) none (earlier ++ first :: between ++ later :: rest))
    (hfirst : (initWithPath lib path first (run (step lib path) none earlier)).1 = .ok m)
    (hlater : (initWithPath lib path later
      (run (step lib path) none (earlier ++ first :: between))).1 = .ok m') :
    m' = m ∧ SelfCertifying lib.toIdentityLibraries (identity lib m) := by
  have hbefore := ((guarded_append _ _ _ _ _).mp henvs).1
  obtain ⟨hearlier, hguard, -⟩ := (guarded_append _ _ _ _ _).mp hbefore
  have hsound : Sound lib path (run (step lib path) none earlier) := sound_run .absent hearlier
  obtain ⟨seed, hread, rfl⟩ := (sound_step hsound hguard).2 m hfirst
  have hholds := holds_of_ok hguard.seed hfirst
  refine ⟨?_, selfCertifying_ofSeed hread⟩
  rw [run_append, run_cons, step, hholds.run] at hlater
  exact hholds.eq_of_ok hlater

def sampleStored (did : Did) (b : Byte) : StoredIdentity where
  did := did
  secretKeyHex := String.ofList (KeyLibraries.hexText (CrdtEngine.sampleKey b).val)
  publicKeyHex := String.ofList (KeyLibraries.hexText (CrdtEngine.sampleKey b).val)

def sampleLibraries : KeyLibraries :=
  KeyLibraries.sampleKeyLibraries
    [sampleStored CrdtEngine.sampleDid₁ 1, sampleStored CrdtEngine.sampleDid₂ 2]

theorem sampleLibraries_bs58Decode (bytes : Bytes) :
    sampleLibraries.bs58Decode (sampleLibraries.bs58Encode bytes) = .ok bytes :=
  (KeyLibraries.sampleKeyLibraries_base58 _).decode_encode bytes

theorem sampleLibraries_verify (seed : KeyBytes) (payload : Bytes) :
    sampleLibraries.verify (sampleLibraries.verifyingKey seed) payload
      (sampleLibraries.sign seed payload) = .ok () := rfl

theorem sampleLibraries_hexDecode (key : KeyBytes) :
    sampleLibraries.hexDecode (sampleLibraries.hexEncode key.val) = .ok key.val :=
  KeyLibraries.hexDecode_hexEncode _ _

theorem sampleLibraries_readsBack (did : Did) (b : Byte)
    (hdid : sampleLibraries.deriveDid (sampleLibraries.verifyingKey (CrdtEngine.sampleKey b)) = did)
    (hfile : sampleLibraries.storedFromStr (sampleLibraries.storedToString (sampleStored did b)) =
      .ok (sampleStored did b)) : ReadsBack sampleLibraries (CrdtEngine.sampleKey b) := by
  refine ⟨sampleLibraries_bs58Decode _, sampleLibraries_hexDecode _, sampleLibraries_hexDecode _, ?_,
    sampleLibraries_verify _⟩
  intro stored hstored
  rw [hdid] at hstored
  have hsample : stored = sampleStored did b := hstored
  rw [hsample]
  exact hfile

theorem sampleLibraries_readsBack₁ : ReadsBack sampleLibraries (CrdtEngine.sampleKey 1) :=
  sampleLibraries_readsBack CrdtEngine.sampleDid₁ 1 (by decide +kernel) (by decide +kernel)

theorem sampleLibraries_readsBack₂ : ReadsBack sampleLibraries (CrdtEngine.sampleKey 2) :=
  sampleLibraries_readsBack CrdtEngine.sampleDid₂ 2 (by decide +kernel) (by decide +kernel)

def sampleStart (b : Byte) : StartEnvironment := ⟨.ok (CrdtEngine.sampleKey b), none, none⟩

theorem sampleStart_tears {b : Byte} (hread : ReadsBack sampleLibraries (CrdtEngine.sampleKey b))
    (file : IdentityFile) (readFault : Option String) :
    Tears sampleLibraries file { sampleStart b with readFault } := by
  refine ⟨fun seed hseed => ?_, fun e left hfault => by cases hfault⟩
  cases hseed
  exact hread

/-- After a write that fails without a trace one start makes the pair, one cannot read the file and
one, with another seed, loads the pair. -/
theorem identity_kept_sample :
    ofSeed sampleLibraries (CrdtEngine.sampleKey 1) = ⟨CrdtEngine.sampleDid₁, CrdtEngine.sampleKey 1⟩ ∧
      SelfCertifying sampleLibraries.toIdentityLibraries
        (identity sampleLibraries ⟨CrdtEngine.sampleDid₁, CrdtEngine.sampleKey 1⟩) :=
  identity_kept sampleLibraries "identity.json"
    [⟨.ok (CrdtEngine.sampleKey 2), none, some ("No space left on device (os error 28)", none)⟩]
    [{ sampleStart 2 with readFault := some "Permission denied (os error 13)" }] []
    (sampleStart 1) (sampleStart 2) _ _
    ⟨⟨fun seed hseed => by cases hseed; exact sampleLibraries_readsBack₂,
        fun e left hfault => by cases hfault; exact .inl rfl⟩,
      sampleStart_tears sampleLibraries_readsBack₁ _ none,
      sampleStart_tears sampleLibraries_readsBack₂ _ _,
      sampleStart_tears sampleLibraries_readsBack₂ _ none, trivial⟩
    (by decide +kernel) (by decide +kernel)

end IdentityManager

end TirBase
