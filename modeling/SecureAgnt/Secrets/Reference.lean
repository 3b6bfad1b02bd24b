/-
References to secrets.

A reference names a backend and a key in it.  Its cache key is its canonical text.
-/
import SecureAgnt.Lib.Text

namespace SecureAgnt
namespace Secrets

/-! ## References -/

inductive SecretBackend where
  | env
  | file
  | vault
  | awsSecretsManager
  | gcpSecretManager
  | azureKeyVault
  deriving DecidableEq, Repr

def SecretBackend.asStr : SecretBackend → String
  | .env => "env"
  | .file => "file"
  | .vault => "vault"
  | .awsSecretsManager => "aws-sm"
  | .gcpSecretManager => "gcp-sm"
  | .azureKeyVault => "azure-kv"

def SecretBackend.all : List SecretBackend :=
  [.env, .file, .vault, .awsSecretsManager, .gcpSecretManager, .azureKeyVault]

/-- The match on the lower-case scheme. -/
def SecretBackend.ofScheme (scheme : String) : Option SecretBackend :=
  SecretBackend.all.find? fun backend => backend.asStr = scheme

structure SecretReference where
  backend : SecretBackend
  key : String
  deriving DecidableEq, Repr

namespace SecretReference

def parse (raw : String) : Except String SecretReference :=
  match Text.splitOnce (Text.trim raw) ':' with
  | none => .error "secret reference must be scheme-prefixed (e.g., env:VAR)"
  | some (scheme, key) =>
    let scheme := Text.toAsciiLowercase (Text.trim scheme)
    match SecretBackend.ofScheme scheme with
    | none => .error ("unsupported secret backend `" ++ scheme ++
        "` (supported: env, file, vault, aws-sm, gcp-sm, azure-kv)")
    | some backend =>
      let key := Text.trim key
      if Text.isEmpty key then .error "secret reference key/path must not be empty"
      else .ok ⟨backend, key⟩

def cacheKey (reference : SecretReference) : String :=
  reference.backend.asStr ++ ":" ++ reference.key

end SecretReference

section References

theorem SecretBackend.ofScheme_asStr (backend : SecretBackend) :
    SecretBackend.ofScheme backend.asStr = some backend := by
  cases backend <;> decide

theorem colon_not_mem_asStr (backend : SecretBackend) : ':' ∉ backend.asStr.toList := by
  cases backend <;> decide

theorem splitOnce_cacheKey (reference : SecretReference) :
    Text.splitOnce reference.cacheKey ':' = some (reference.backend.asStr, reference.key) := by
  have htext : reference.cacheKey =
      String.ofList (reference.backend.asStr.toList ++ ':' :: reference.key.toList) := by
    simp [SecretReference.cacheKey, String.ofList_append, String.append_assoc]
  rw [htext]
  exact Text.splitOnce_join (colon_not_mem_asStr reference.backend)

/-- References with one cache key are one reference. -/
theorem cacheKey_injective : Function.Injective SecretReference.cacheKey := by
  intro x y h
  have hx := splitOnce_cacheKey x
  rw [h, splitOnce_cacheKey y] at hx
  have hpair := Option.some.inj hx
  have hbackend : y.backend.asStr = x.backend.asStr := (Prod.mk.inj hpair).1
  have hkey : y.key = x.key := (Prod.mk.inj hpair).2
  have hof := SecretBackend.ofScheme_asStr x.backend
  rw [← hbackend, SecretBackend.ofScheme_asStr] at hof
  obtain ⟨backend, key⟩ := x
  cases hkey
  cases hof
  rfl

end References

end Secrets
end SecureAgnt
