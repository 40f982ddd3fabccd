import DashBeam.Lib.BaseEncoding
import DashBeam.Lib.FileSteps
import DashBeam.Lib.Trim

/-!
# The secret key of the device

`engine/native/src/identity_store.rs` and the keychain of `secret_store.rs`. The key is in
`identity.key`, in an entry of the OS keychain, or generated, and a load brings both places up to date.
The file is the source of truth, but an error of the keychain read ends the load before the file is
used.
-/

namespace DashBeam.Native

open Lib

/-! ## Keys -/

/-- A `SecretKey`, by its bytes. -/
structure SecretKey where
  bytes : Bytes
  length_eq : bytes.length = 32
  deriving DecidableEq, Repr

inductive SecretSource
  | envVar | identityFile | keychainMigrated | generated
  deriving DecidableEq, Repr

structure SecretLoadOutcome where
  secret : SecretKey
  source : SecretSource
  deriving DecidableEq, Repr

/-- Where a load ends. -/
inductive IdentityError
  /-- The context is `create <data_dir>`. -/
  | createDataDir
  /-- `invalid secret hex`. -/
  | secretHex
  /-- `identity key must be 32 bytes, got <n>`. -/
  | secretLength (got : Nat)
  /-- The context is `read <path>`. -/
  | readIdentityFile
  /-- What `get_password` returns, or the context `keyring entry`. -/
  | keychain
  /-- A step of `write_identity_file`. -/
  | writeIdentityFile
  deriving DecidableEq, Repr

def parseSecretBytes (bytes : Bytes) : Except IdentityError SecretKey :=
  if h : bytes.length = 32 then .ok ⟨bytes, h⟩ else .error (.secretLength bytes.length)

/-- The digit of a number below 16, in lower case. -/
def hexDigit (n : Nat) : Char := "0123456789abcdef".toList.getD n '0'

/-- `HEXLOWER.encode`. -/
def encodeHexLower (bytes : Bytes) : Text :=
  bytes.flatMap fun b => [hexDigit (b.toNat / 16), hexDigit (b.toNat % 16)]

/-- `HEXLOWER.decode`, which takes no capitals. -/
def decodeHexLower (s : Text) : Option Bytes :=
  if s.all fun c => c ∈ "0123456789abcdef".toList then decodeHex s else none

def parseSecretHex (hex : Text) : Except IdentityError SecretKey :=
  match decodeHexLower (trimEnds isWhitespace hex) with
  | none => .error .secretHex
  | some bytes => parseSecretBytes bytes

/-! ## The keychain -/

/-- The keychain as one load meets it. -/
inductive Keychain
  /-- On Android nothing is read or written. -/
  | skipped
  | os (entry : Option Text) (reads writes : Bool)
  deriving DecidableEq, Repr

namespace Keychain

def loadSecretHex : Keychain → Except IdentityError (Option Text)
  | .skipped => .ok none
  | .os entry reads _ => if reads then .ok entry else .error .keychain

def saveSecretHex (hex : Text) : Keychain → Bool × Keychain
  | .skipped => (true, .skipped)
  | .os entry reads writes =>
    if writes then (true, .os (some hex) reads writes) else (false, .os entry reads writes)

/-- `sync_keychain_best_effort`. What it reads back it only compares. -/
def syncBestEffort (secret : SecretKey) (keychain : Keychain) : Keychain :=
  (keychain.saveSecretHex (encodeHexLower secret.bytes)).2

/-- `read_keychain_secret`. An entry that is no key counts as none. -/
def readSecret (keychain : Keychain) : Except IdentityError (Option SecretKey) :=
  match keychain.loadSecretHex with
  | .error err => .error err
  | .ok none => .ok none
  | .ok (some hex) => .ok (parseSecretHex hex).toOption

def Readable : Keychain → Prop
  | .skipped => True
  | .os _ reads _ => reads = true

instance (keychain : Keychain) : Decidable keychain.Readable := by
  cases keychain <;> unfold Readable <;> infer_instance

end Keychain

/-! ## What is written is read back -/

theorem hexDigit_spec {n : Nat} (h : n < 16) : hexValue (hexDigit n) = some n ∧
    hexDigit n ∈ "0123456789abcdef".toList ∧ isWhitespace (hexDigit n) = false := by
  have hall : ∀ n < 16, hexValue (hexDigit n) = some n ∧
      hexDigit n ∈ "0123456789abcdef".toList ∧ isWhitespace (hexDigit n) = false := by decide
  exact hall n h

theorem mem_encodeHexLower {bytes : Bytes} {c : Char} (h : c ∈ encodeHexLower bytes) :
    ∃ n < 16, c = hexDigit n := by
  obtain ⟨b, -, hc⟩ := List.mem_flatMap.mp h
  have hb : b.toNat < 256 := b.toNat_lt
  rcases List.mem_cons.mp hc with rfl | hc
  · exact ⟨b.toNat / 16, by omega, rfl⟩
  · exact ⟨b.toNat % 16, by omega, List.mem_singleton.mp hc⟩

theorem decodeHex_encodeHexLower (bytes : Bytes) : decodeHex (encodeHexLower bytes) = some bytes := by
  induction bytes with
  | nil => rfl
  | cons b bytes ih =>
    have hb : b.toNat < 256 := b.toNat_lt
    obtain ⟨hhigh, -⟩ := hexDigit_spec (n := b.toNat / 16) (by omega)
    obtain ⟨hlow, -⟩ := hexDigit_spec (n := b.toNat % 16) (by omega)
    have hback : UInt8.ofNat (16 * (b.toNat / 16) + b.toNat % 16) = b := by
      rw [Nat.div_add_mod]
      exact UInt8.ofNat_toNat
    rw [encodeHexLower, List.flatMap_cons, ← encodeHexLower, List.cons_append, List.singleton_append,
      decodeHex, hhigh, hlow, ih]
    dsimp only
    rw [hback]

theorem parseSecretBytes_bytes (secret : SecretKey) : parseSecretBytes secret.bytes = .ok secret :=
  dif_pos secret.length_eq

theorem parseSecretHex_encode (secret : SecretKey) :
    parseSecretHex (encodeHexLower secret.bytes) = .ok secret := by
  have htrimmed : Trimmed isWhitespace (encodeHexLower secret.bytes) := by
    apply trimmed_of_all
    intro c hc
    obtain ⟨n, hn, rfl⟩ := mem_encodeHexLower hc
    exact (hexDigit_spec hn).2.2
  have hlower : (encodeHexLower secret.bytes).all (fun c => c ∈ "0123456789abcdef".toList) = true := by
    rw [List.all_eq_true]
    intro c hc
    obtain ⟨n, hn, rfl⟩ := mem_encodeHexLower hc
    exact decide_eq_true (hexDigit_spec hn).2.1
  rw [parseSecretHex, trimEnds_of_trimmed htrimmed, decodeHexLower, if_pos hlower,
    decodeHex_encodeHexLower]
  exact parseSecretBytes_bytes secret

/-- A keychain that can be written and read holds the key it was brought up to date with. -/
theorem Keychain.readSecret_syncBestEffort (entry : Option Text) (secret : SecretKey) :
    ((Keychain.os entry true true).syncBestEffort secret).readSecret = .ok (some secret) := by
  change Except.ok (parseSecretHex (encodeHexLower secret.bytes)).toOption = _
  rw [parseSecretHex_encode]
  rfl

/-! ## The file -/

inductive KeyName
  /-- `IDENTITY_KEY_FILE`. -/
  | identityKey
  | identityKeyTmp
  deriving DecidableEq, Repr

/-- What stands under a name: bytes, or something that `fs::read` fails on. -/
inductive KeyContent
  | bytes (bytes : Bytes)
  | unreadable
  deriving DecidableEq, Repr

/-- The data directory, as far as the key goes. -/
abbrev KeyDir : Type := FileDir KeyName KeyContent

/-- `read_identity_file`. A content that is no key counts as none. -/
def readIdentityFile (dir : KeyDir) : Except IdentityError (Option SecretKey) :=
  match dir.file .identityKey with
  | none => .ok none
  | some .unreadable => .error .readIdentityFile
  | some (.bytes bytes) => .ok (parseSecretBytes bytes).toOption

/-- The steps of `write_identity_file`, up to its rename and with the permissions after it. -/
def writeIdentityFile (secret : SecretKey) : List (FileStep KeyName KeyContent) :=
  replaceSteps .identityKeyTmp .identityKey (.bytes secret.bytes)
    [.setPermissions .identityKeyTmp] ++ [.setPermissions .identityKey]

/-- What the file system and the generator do in one load. -/
structure LoadIo where
  create : StepOutcome KeyContent
  write : Nat → StepOutcome KeyContent
  generated : SecretKey

structure Loaded where
  result : Except IdentityError SecretLoadOutcome
  dir : KeyDir
  keychain : Keychain

def storeSecret (io : LoadIo) (dir : KeyDir) (keychain : Keychain) (outcome : SecretLoadOutcome) :
    Loaded :=
  match runSteps io.write (writeIdentityFile outcome.secret) dir with
  | (false, dir) => ⟨.error .writeIdentityFile, dir, keychain⟩
  | (true, dir) => ⟨.ok outcome, dir, keychain.syncBestEffort outcome.secret⟩

/-- `load_or_create_secret`, with the value of `IROH_SECRET`. -/
def loadOrCreateSecret (irohSecret : Option Text) (io : LoadIo) (dir : KeyDir)
    (keychain : Keychain) : Loaded :=
  match FileStep.run io.create dir .createDir with
  | (false, dir) => ⟨.error .createDataDir, dir, keychain⟩
  | (true, dir) =>
    match irohSecret with
    | some hex => ⟨(parseSecretHex hex).map fun secret => ⟨secret, .envVar⟩, dir, keychain⟩
    | none =>
      match readIdentityFile dir, keychain.readSecret with
      | .error err, _ => ⟨.error err, dir, keychain⟩
      | .ok _, .error err => ⟨.error err, dir, keychain⟩
      | .ok (some file), .ok (some stored) =>
        if file = stored then ⟨.ok ⟨file, .identityFile⟩, dir, keychain⟩
        else ⟨.ok ⟨file, .identityFile⟩, dir, keychain.syncBestEffort file⟩
      | .ok (some file), .ok none =>
        ⟨.ok ⟨file, .identityFile⟩, dir, keychain.syncBestEffort file⟩
      | .ok none, .ok (some stored) => storeSecret io dir keychain ⟨stored, .keychainMigrated⟩
      | .ok none, .ok none => storeSecret io dir keychain ⟨io.generated, .generated⟩

/-! ## One load -/

/-- `identity.key` holds the key. -/
def HoldsKey (dir : KeyDir) (secret : SecretKey) : Prop :=
  dir.file .identityKey = some (.bytes secret.bytes)

theorem readSecret_of_readable {keychain : Keychain} (h : keychain.Readable) :
    ∃ stored, keychain.readSecret = .ok stored := by
  cases keychain with
  | skipped => exact ⟨none, rfl⟩
  | os entry reads writes =>
    obtain rfl : reads = true := h
    cases entry <;> exact ⟨_, rfl⟩

theorem readSecret_unreadable {keychain : Keychain} (h : ¬ keychain.Readable) :
    keychain.readSecret = .error .keychain := by
  cases keychain with
  | skipped => exact absurd trivial h
  | os entry reads writes =>
    obtain rfl : reads = false := Bool.eq_false_iff.mpr h
    rfl

theorem readIdentityFile_of_holds {dir : KeyDir} {secret : SecretKey} (h : HoldsKey dir secret) :
    readIdentityFile dir = .ok (some secret) := by
  rw [readIdentityFile, h]
  dsimp only
  rw [parseSecretBytes_bytes]
  rfl

theorem holds_of_readIdentityFile {dir : KeyDir} {secret : SecretKey}
    (h : readIdentityFile dir = .ok (some secret)) : HoldsKey dir secret := by
  unfold readIdentityFile at h
  split at h
  · cases h
  · cases h
  · rename_i bytes hbytes
    unfold parseSecretBytes at h
    split at h
    · cases h
      exact hbytes
    · cases h

theorem createDir_of_present {dir : KeyDir} (h : dir.present = true)
    (outcome : StepOutcome KeyContent) : FileStep.run outcome dir .createDir = (true, dir) := by
  unfold FileStep.run
  rw [h]

/-- A load that finds the key in the file and can read the keychain returns it and leaves the file. -/
theorem load_of_holds {dir : KeyDir} {secret : SecretKey} (h : HoldsKey dir secret) (io : LoadIo)
    {keychain : Keychain} (hreadable : keychain.Readable) :
    (loadOrCreateSecret none io dir keychain).result = .ok ⟨secret, .identityFile⟩ ∧
      (loadOrCreateSecret none io dir keychain).dir = dir := by
  obtain ⟨stored, hstored⟩ := readSecret_of_readable hreadable
  rw [loadOrCreateSecret, createDir_of_present (FileDir.present_of_file h)]
  dsimp only
  rw [readIdentityFile_of_holds h, hstored]
  cases stored with
  | none => exact ⟨rfl, rfl⟩
  | some stored =>
    dsimp only
    split <;> exact ⟨rfl, rfl⟩

theorem load_unreadable {keychain : Keychain} (h : ¬ keychain.Readable) (io : LoadIo) (dir : KeyDir) :
    ∃ err, (loadOrCreateSecret none io dir keychain).result = .error err := by
  rw [loadOrCreateSecret, readSecret_unreadable h]
  rcases FileStep.run io.create dir .createDir with ⟨_ | _, made⟩
  · exact ⟨_, rfl⟩
  · dsimp only
    cases readIdentityFile made <;> exact ⟨_, rfl⟩

theorem runSteps_writeIdentityFile (secret : SecretKey) (outcomes : Nat → StepOutcome KeyContent)
    {dir : KeyDir} (hpresent : dir.present = true) :
    ((runSteps outcomes (writeIdentityFile secret) dir).1 = true ↔
      ∀ n, 0 < n → n < 5 → outcomes n = .works) ∧
    ((runSteps outcomes (writeIdentityFile secret) dir).1 = true →
      HoldsKey (runSteps outcomes (writeIdentityFile secret) dir).2 secret) := by
  have hneutral : ∀ name : KeyName, ∀ step ∈ ([.setPermissions name] : List (FileStep KeyName KeyContent)),
      step.neutral = true := by
    intro name step hstep
    rw [List.mem_singleton.mp hstep]
    rfl
  have hreplace : (runSteps outcomes (replaceSteps .identityKeyTmp .identityKey
      (.bytes secret.bytes) [.setPermissions .identityKeyTmp]) dir).1 = true ↔
      ∀ n, 0 < n → n < 4 → outcomes n = .works := by
    rw [replace_worked_iff (hneutral _)]
    exact ⟨fun h => h.2, fun h => ⟨Or.inl hpresent, h⟩⟩
  rw [writeIdentityFile, runSteps_append]
  split
  · rename_i hreplaced
    have hearlier := hreplace.mp hreplaced
    obtain ⟨hfile, -⟩ := replace_done (hneutral _) hreplaced
    constructor
    · rw [runSteps_neutral (hneutral _)]
      constructor
      · intro hlast n hpos hlt
        rcases Nat.lt_or_ge n 4 with h | h
        · exact hearlier n hpos h
        · obtain rfl : n = 0 + 4 := by omega
          exact hlast 0 Nat.zero_lt_one
      · intro hall n hn
        exact hall (n + 4) (by omega) (by rw [List.length_singleton] at hn; omega)
    · intro _
      rw [HoldsKey, runSteps_untouched, hfile]
      exact fun step hstep => FileStep.not_touches_of_neutral (hneutral _ step hstep) _
  · rename_i hreplaced
    refine ⟨iff_of_false hreplaced fun hall => hreplaced (hreplace.mpr ?_), fun h => absurd h hreplaced⟩
    exact fun n hpos hlt => hall n hpos (by omega)

/-- The steps of a write work. -/
def LoadIo.Writes (io : LoadIo) : Prop := ∀ n, 0 < n → n < 5 → io.write n = .works

theorem storeSecret_spec (io : LoadIo) {dir : KeyDir} (hpresent : dir.present = true)
    (keychain : Keychain) (outcome : SecretLoadOutcome) :
    (io.Writes → (storeSecret io dir keychain outcome).result = .ok outcome) ∧
    ∀ found, (storeSecret io dir keychain outcome).result = .ok found →
      io.Writes ∧ HoldsKey (storeSecret io dir keychain outcome).dir found.secret := by
  obtain ⟨hworks, hholds⟩ := runSteps_writeIdentityFile outcome.secret io.write hpresent
  rw [storeSecret]
  rcases hrun : runSteps io.write (writeIdentityFile outcome.secret) dir with ⟨_ | _, written⟩
  · rw [hrun] at hworks
    refine ⟨fun hall => absurd (hworks.mpr hall) Bool.false_ne_true, fun found h => ?_⟩
    cases h
  · rw [hrun] at hworks hholds
    refine ⟨fun _ => rfl, fun found h => ?_⟩
    cases h
    exact ⟨hworks.mp rfl, hholds rfl⟩

/-- What a load needs to return a key: the directory, the keychain, and the key in its file or a file
that can be written. -/
structure Succeeds (io : LoadIo) (dir : KeyDir) (keychain : Keychain) : Prop where
  made : dir.present = true ∨ io.create = .works
  readable : keychain.Readable
  file : dir.file .identityKey ≠ some .unreadable
  key : (∃ secret, HoldsKey dir secret) ∨ io.Writes

theorem Succeeds.of_file {io : LoadIo} {dir made : KeyDir} {keychain : Keychain}
    (h : Succeeds io dir keychain) (hmade : made.present = true ∨ io.create = .works)
    (hfile : made.file .identityKey = dir.file .identityKey) : Succeeds io made keychain := by
  refine ⟨hmade, h.readable, ?_, h.key.imp_left ?_⟩
  · rw [hfile]
    exact h.file
  · rintro ⟨secret, hholds⟩
    exact ⟨secret, hfile.trans hholds⟩

theorem load_of_made {io : LoadIo} {dir made : KeyDir} (keychain : Keychain)
    (h : FileStep.run io.create dir .createDir = (true, made)) :
    made.present = true ∧ made.file .identityKey = dir.file .identityKey ∧
      loadOrCreateSecret none io dir keychain = loadOrCreateSecret none io made keychain := by
  have hpresent := FileStep.createDir_present (congrArg Prod.fst h)
  have hfile : (FileStep.run io.create dir .createDir).2.file .identityKey =
      dir.file .identityKey := FileStep.run_untouched id io.create dir
  rw [h] at hpresent hfile
  refine ⟨hpresent, hfile, ?_⟩
  rw [loadOrCreateSecret, loadOrCreateSecret, h, createDir_of_present hpresent]

theorem load_of_missing {dir : KeyDir} (hpresent : dir.present = true)
    (hfile : readIdentityFile dir = .ok none) {keychain : Keychain} (hreadable : keychain.Readable)
    (io : LoadIo) : ∃ outcome,
      loadOrCreateSecret none io dir keychain = storeSecret io dir keychain outcome := by
  obtain ⟨stored, hstored⟩ := readSecret_of_readable hreadable
  rw [loadOrCreateSecret, createDir_of_present hpresent]
  dsimp only
  rw [hfile, hstored]
  cases stored <;> exact ⟨_, rfl⟩

theorem readIdentityFile_cases (dir : KeyDir) :
    (∃ secret, HoldsKey dir secret) ∨ readIdentityFile dir = .ok none ∨
      dir.file .identityKey = some .unreadable := by
  cases hread : readIdentityFile dir with
  | ok found =>
    cases found with
    | some secret => exact Or.inl ⟨secret, holds_of_readIdentityFile hread⟩
    | none => exact Or.inr (Or.inl rfl)
  | error err =>
    refine Or.inr (Or.inr ?_)
    unfold readIdentityFile at hread
    split at hread
    · cases hread
    · assumption
    · cases hread

theorem load_spec_of_present (io : LoadIo) {dir : KeyDir} (hpresent : dir.present = true)
    (keychain : Keychain) :
    (Succeeds io dir keychain →
      ∃ outcome, (loadOrCreateSecret none io dir keychain).result = .ok outcome) ∧
    ∀ outcome, (loadOrCreateSecret none io dir keychain).result = .ok outcome →
      Succeeds io dir keychain ∧
        HoldsKey (loadOrCreateSecret none io dir keychain).dir outcome.secret := by
  by_cases hreadable : keychain.Readable
  · rcases readIdentityFile_cases dir with ⟨secret, hholds⟩ | hmissing | hunreadable
    · obtain ⟨hresult, hdir⟩ := load_of_holds hholds io hreadable
      refine ⟨fun _ => ⟨_, hresult⟩, fun outcome houtcome => ?_⟩
      rw [hresult] at houtcome
      cases houtcome
      refine ⟨⟨Or.inl hpresent, hreadable, ?_, Or.inl ⟨secret, hholds⟩⟩, ?_⟩
      · rw [hholds]
        exact fun heq => nomatch heq
      · rw [hdir]
        exact hholds
    · obtain ⟨outcome, hload⟩ := load_of_missing hpresent hmissing hreadable io
      obtain ⟨hworks, hstored⟩ := storeSecret_spec io hpresent keychain outcome
      rw [hload]
      refine ⟨fun hsucceeds => ?_, fun found hfound => ?_⟩
      · rcases hsucceeds.key with ⟨secret, hholds⟩ | hwrites
        · rw [readIdentityFile_of_holds hholds] at hmissing
          cases hmissing
        · exact ⟨outcome, hworks hwrites⟩
      · obtain ⟨hwrites, hholds⟩ := hstored found hfound
        refine ⟨⟨Or.inl hpresent, hreadable, fun hunreadable => ?_, Or.inr hwrites⟩, hholds⟩
        rw [readIdentityFile, hunreadable] at hmissing
        cases hmissing
    · refine ⟨fun hsucceeds => absurd hunreadable hsucceeds.file, fun outcome houtcome => ?_⟩
      rw [loadOrCreateSecret, createDir_of_present hpresent] at houtcome
      dsimp only at houtcome
      rw [readIdentityFile, hunreadable] at houtcome
      cases houtcome
  · obtain ⟨err, herr⟩ := load_unreadable hreadable io dir
    refine ⟨fun hsucceeds => absurd hsucceeds.readable hreadable, fun outcome houtcome => ?_⟩
    rw [herr] at houtcome
    cases houtcome

theorem load_spec (io : LoadIo) (dir : KeyDir) (keychain : Keychain) :
    (Succeeds io dir keychain →
      ∃ outcome, (loadOrCreateSecret none io dir keychain).result = .ok outcome) ∧
    ∀ outcome, (loadOrCreateSecret none io dir keychain).result = .ok outcome →
      Succeeds io dir keychain ∧
        HoldsKey (loadOrCreateSecret none io dir keychain).dir outcome.secret := by
  have hworked : (FileStep.run io.create dir .createDir).1 = true ↔
      dir.present = true ∨ io.create = .works := FileStep.createDir_worked_iff
  rcases hrun : FileStep.run io.create dir .createDir with ⟨_ | _, made⟩
  · have hnot : ¬ (dir.present = true ∨ io.create = .works) := by
      rw [← hworked, hrun]
      exact Bool.false_ne_true
    refine ⟨fun hsucceeds => absurd hsucceeds.made hnot, fun outcome houtcome => ?_⟩
    rw [loadOrCreateSecret, hrun] at houtcome
    cases houtcome
  · obtain ⟨hpresent, hfile, hload⟩ := load_of_made keychain hrun
    have hmade : dir.present = true ∨ io.create = .works := by
      rw [← hworked, hrun]
    have hsame : Succeeds io dir keychain ↔ Succeeds io made keychain :=
      ⟨fun h => h.of_file (Or.inl hpresent) hfile, fun h => h.of_file hmade hfile.symm⟩
    rw [hload, hsame]
    exact load_spec_of_present io hpresent keychain

/-! ## Loads one after the other -/

/-- The results of later loads, each with the keychain it meets. Nothing else touches the file. -/
def laterLoads (dir : KeyDir) : List (LoadIo × Keychain) →
    List (Except IdentityError SecretLoadOutcome)
  | [] => []
  | (io, keychain) :: later =>
    (loadOrCreateSecret none io dir keychain).result ::
      laterLoads (loadOrCreateSecret none io dir keychain).dir later

/-- With the key in the file, all loads return it exactly when they can read the keychain. -/
theorem laterLoads_iff {dir : KeyDir} {secret : SecretKey} (h : HoldsKey dir secret)
    (later : List (LoadIo × Keychain)) :
    (∀ result ∈ laterLoads dir later, ∃ outcome, result = .ok outcome ∧ outcome.secret = secret) ↔
      ∀ load ∈ later, load.2.Readable := by
  induction later with
  | nil => exact iff_of_true (fun result hresult => nomatch hresult) fun load hload => nomatch hload
  | cons load later ih =>
    obtain ⟨io, keychain⟩ := load
    rw [laterLoads, List.forall_mem_cons, List.forall_mem_cons]
    by_cases hreadable : keychain.Readable
    · obtain ⟨hresult, hdir⟩ := load_of_holds h io hreadable
      rw [hresult, hdir, ih]
      exact and_congr_left fun _ => iff_of_true ⟨_, rfl, rfl⟩ hreadable
    · obtain ⟨err, herr⟩ := load_unreadable hreadable io dir
      refine iff_of_false (fun hall => ?_) fun hall => hreadable hall.1
      obtain ⟨outcome, houtcome, -⟩ := hall.1
      rw [herr] at houtcome
      cases houtcome

/-- The identity is stable from a load on: a key in the file is returned, a returned key is in the
file, and later loads return the same. -/
structure StableIdentity (dir : KeyDir) (io : LoadIo) (keychain : Keychain)
    (later : List (LoadIo × Keychain)) : Prop where
  kept : ∀ secret, HoldsKey dir secret → ∃ outcome,
    (loadOrCreateSecret none io dir keychain).result = .ok outcome ∧ outcome.secret = secret
  stored : ∀ outcome, (loadOrCreateSecret none io dir keychain).result = .ok outcome →
    HoldsKey (loadOrCreateSecret none io dir keychain).dir outcome.secret
  again : ∀ outcome, (loadOrCreateSecret none io dir keychain).result = .ok outcome →
    ∀ result ∈ laterLoads (loadOrCreateSecret none io dir keychain).dir later,
      ∃ found, result = .ok found ∧ found.secret = outcome.secret

/-- The identity is stable exactly when no load that finds the key in the file meets a keychain that
cannot be read. -/
theorem stableIdentity_iff (dir : KeyDir) (io : LoadIo) (keychain : Keychain)
    (later : List (LoadIo × Keychain)) :
    StableIdentity dir io keychain later ↔
      ((∃ secret, HoldsKey dir secret) → keychain.Readable) ∧
        (Succeeds io dir keychain → ∀ load ∈ later, load.2.Readable) := by
  obtain ⟨hsucceeds, hstored⟩ := load_spec io dir keychain
  constructor
  · intro hstable
    constructor
    · rintro ⟨secret, hholds⟩
      obtain ⟨outcome, houtcome, -⟩ := hstable.kept secret hholds
      exact (hstored outcome houtcome).1.readable
    · intro h
      obtain ⟨outcome, houtcome⟩ := hsucceeds h
      have hholds := (hstored outcome houtcome).2
      exact (laterLoads_iff hholds later).mp (hstable.again outcome houtcome)
  · rintro ⟨hfound, hlater⟩
    refine ⟨fun secret hholds => ?_, fun outcome houtcome => (hstored outcome houtcome).2,
      fun outcome houtcome => ?_⟩
    · exact ⟨_, (load_of_holds hholds io (hfound ⟨secret, hholds⟩)).1, rfl⟩
    · obtain ⟨h, hholds⟩ := hstored outcome houtcome
      exact (laterLoads_iff hholds later).mpr (hlater h)

def zeroKey : SecretKey := ⟨List.replicate 32 0, rfl⟩

/-- A data directory with that key in `identity.key`. -/
def zeroDir : KeyDir where
  present := true
  file
    | .identityKey => some (.bytes zeroKey.bytes)
    | .identityKeyTmp => none
  nothing := nofun

/-- With the key in its file and a keychain that cannot be read there is no identity. -/
theorem identity_lost_with_keychain :
    ¬ ∀ (dir : KeyDir) (io : LoadIo) (keychain : Keychain) (later : List (LoadIo × Keychain)),
      StableIdentity dir io keychain later := by
  intro hall
  obtain ⟨outcome, houtcome, -⟩ := (hall zeroDir ⟨.works, fun _ => .works, zeroKey⟩
    (.os none false true) []).kept zeroKey rfl
  cases houtcome

end DashBeam.Native
