/-
The identity notes are sent under (`signer.rs`), and the key they are signed with.
-/
import SecureAgnt.Message.Nostr

namespace SecureAgnt
namespace Message

inductive NostrSignerMode where
  | localKey
  | nip46Signer
  deriving DecidableEq, Repr

def NostrSignerMode.asStr : NostrSignerMode → String
  | .localKey => "local_key"
  | .nip46Signer => "nip46_signer"

def NostrSignerMode.parse (value : String) : Except String NostrSignerMode :=
  match Text.toAsciiLowercase (Text.trim value) with
  | "local_key" | "local" => .ok .localKey
  | "nip46_signer" | "nip46" => .ok .nip46Signer
  | other => .error ("invalid NOSTR_SIGNER_MODE `" ++ other ++
      "` (supported: local_key, nip46_signer)")

structure NostrSignerIdentity where
  mode : NostrSignerMode
  publicKey : String
  deriving DecidableEq, Repr

structure NostrSignerConfig where
  mode : NostrSignerMode := .localKey
  localSecretKey : Option String := none
  localSecretKeyFile : Option String := none
  nip46BunkerUri : Option String := none
  nip46PublicKey : Option String := none
  nip46ClientSecretKey : Option String := none

def NostrSignerConfig.fromEnv (env : String → Option String) : Except String NostrSignerConfig := do
  let mode ← NostrSignerMode.parse ((env "NOSTR_SIGNER_MODE").getD "local_key")
  return {
    mode := mode
    localSecretKey := env "NOSTR_SECRET_KEY"
    localSecretKeyFile := (env "NOSTR_SECRET_KEY_FILE").bind Text.nonEmptyTrimmed
    nip46BunkerUri := env "NOSTR_NIP46_BUNKER_URI"
    nip46PublicKey := (env "NOSTR_NIP46_PUBLIC_KEY").or (env "NOSTR_PUBLIC_KEY")
    nip46ClientSecretKey := env "NOSTR_NIP46_CLIENT_SECRET_KEY" }

/-! ## Keys -/

def parseSecretKey (rt : NostrRuntime) (value : String) : Except String SecretKey :=
  withContext "failed to parse local Nostr secret key (expected nsec or hex format)"
    (rt.parseSecretKey value)

/-- `mode` as `{:o}` shows it. -/
def octal (mode : Nat) : String := String.ofList (Nat.toDigits 8 mode)

def enforceSecretFilePermissions (path : String) : MessageProg Unit := do
  let metadata ← Call.fileMode path
  let permissions ← Prog.ofExcept
    (withContext ("failed to stat local key file `" ++ path ++ "`") metadata)
  let mode := permissions &&& 0o777
  if mode &&& 0o077 ≠ 0 then
    Prog.fail ("local key file `" ++ path ++ "` is too permissive (mode " ++ octal mode ++
      "); require owner-only permissions (0600)")
  else return ()

def NostrSignerConfig.loadLocalSecretKey (rt : NostrRuntime) (config : NostrSignerConfig) :
    MessageProg (Option SecretKey) :=
  match config.localSecretKey.bind Text.nonEmptyTrimmed with
  | some value => do
    let key ← Prog.ofExcept (parseSecretKey rt value)
    return some key
  | none =>
    match config.localSecretKeyFile with
    | none => return none
    | some path => do
      enforceSecretFilePermissions path
      let answer ← Call.readFile path
      let content ← Prog.ofExcept
        (withContext ("failed to read local key file `" ++ path ++ "`") answer)
      match Text.nonEmptyTrimmed content with
      | none => Prog.fail ("local key file `" ++ path ++ "` is empty")
      | some value => do
        let key ← Prog.ofExcept (parseSecretKey rt value)
        return some key

/-- The key a note is signed with, read anew when it is published. -/
def resolveLocalSecretKeyForPublish (rt : NostrRuntime) (config : NostrSignerConfig) :
    MessageProg SecretKey :=
  match config.localSecretKey.bind Text.nonEmptyTrimmed with
  | some secret =>
    Prog.ofExcept
      (withContext "failed to parse local Nostr secret key for publish" (rt.parseSecretKey secret))
  | none =>
    match config.localSecretKeyFile with
    | none =>
      Prog.fail ("Nostr relay publish requires local key material " ++
        "(NOSTR_SECRET_KEY or NOSTR_SECRET_KEY_FILE)")
    | some path => do
      let answer ← Call.readFile path
      let content ← Prog.ofExcept
        (withContext ("failed to read local Nostr secret key file for publish: " ++ path) answer)
      match Text.nonEmptyTrimmed content with
      | none => Prog.fail ("local Nostr secret key file is empty: " ++ path)
      | some secret =>
        Prog.ofExcept
          (withContext "failed to parse local Nostr secret key from file for publish"
            (rt.parseSecretKey secret))

/-! ## Identities -/

def normalizePublicKey (rt : NostrRuntime) (value : String) : Except String String := do
  let parsed ← withContext "failed to parse Nostr public key (expected npub or hex format)"
    (rt.parsePublicKey value)
  withContext "failed to encode normalized Nostr public key" (rt.toBech32 parsed)

/-- `str::split_once("://")`. -/
def afterScheme : List Char → Option (List Char)
  | ':' :: '/' :: '/' :: rest => some rest
  | _ :: rest => afterScheme rest
  | [] => none

def isUriSeparator (c : Char) : Bool := c = '/' || c = '?' || c = '#'

def extractBunkerPubkey (rt : NostrRuntime) (uri : String) : Option String := do
  let rest ← afterScheme uri.toList
  let candidate ← Text.nonEmptyTrimmed (String.ofList (rest.takeWhile fun c => !isUriSeparator c))
  (normalizePublicKey rt candidate).toOption

def NostrSignerConfig.resolveLocalIdentity (rt : NostrRuntime) (config : NostrSignerConfig) :
    MessageProg (Option NostrSignerIdentity) := do
  match ← config.loadLocalSecretKey rt with
  | none => return none
  | some secretKey =>
    let publicKey ← Prog.ofExcept (withContext "failed to encode local signer public key"
      (rt.toBech32 (rt.publicKey secretKey)))
    return some ⟨.localKey, publicKey⟩

def NostrSignerConfig.resolveNip46Identity (rt : NostrRuntime) (config : NostrSignerConfig) :
    Except String (Option NostrSignerIdentity) :=
  match config.nip46BunkerUri.bind Text.nonEmptyTrimmed with
  | none =>
    .error "NOSTR_NIP46_BUNKER_URI is required when NOSTR_SIGNER_MODE=nip46_signer"
  | some bunkerUri =>
    match config.nip46PublicKey.bind Text.nonEmptyTrimmed with
    | some value => (normalizePublicKey rt value).map fun key => some ⟨.nip46Signer, key⟩
    | none =>
      match extractBunkerPubkey rt bunkerUri with
      | some key => .ok (some ⟨.nip46Signer, key⟩)
      | none => .error ("NIP-46 signer requires NOSTR_NIP46_PUBLIC_KEY or bunker URI " ++
          "containing the public key")

def NostrSignerConfig.resolveIdentity (rt : NostrRuntime) (config : NostrSignerConfig) :
    MessageProg (Option NostrSignerIdentity) :=
  match config.mode with
  | .localKey => config.resolveLocalIdentity rt
  | .nip46Signer => Prog.ofExcept (config.resolveNip46Identity rt)

end Message
end SecureAgnt
