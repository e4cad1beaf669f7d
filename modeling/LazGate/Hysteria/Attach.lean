import LazGate.Net
import LazGate.Hysteria.Decode

/-!
# Attaching to a Hysteria server that exists

The provisioning steps that put LazGate into the configuration of a running Hysteria server and
take it out again. Attaching keeps a copy of the owner's file and writes `auth` and
`trafficStats`; settings are put over the file with `Config.Runtime` afterwards; detaching takes
those two keys from the copy. The YAML and JSON libraries are taken to keep maps.
-/

namespace LazGate.Provisioning

open Hy2config

/-! ## Attaching and detaching -/

/-- `fmt.Sprint` of what a map has under a key. -/
def sprintKey (o : Object) (key : String) : String := sprint ((o.get key).getD .null)

def hasStaticAuthUsers (auth : Option Object) : Bool :=
  match auth with
  | none => false
  | some m =>
    equalFold (sprintKey m "type") "password" || equalFold (sprintKey m "type") "userpass" ||
      (m.get "password").isSome || (m.get "userpass").isSome

/-- `listenPort`: the port of a listen value, or 0. -/
def listenPort (value : String) : ℤ :=
  let raw := trimSpace value
  if raw = "" then 0
  else
    let raw := match raw.toList with
      | ':' :: rest => String.ofList rest
      | _ => raw
    let raw := match Net.splitHostPort raw with
      | some (_, port) => port
      | none => raw
    match atoi raw with
    | some port => if port < 1 ∨ 65535 < port then 0 else port
    | none => 0

/-- What `patchExistingHysteriaConfig` returns. -/
structure Patched where
  config : Object
  port : ℤ
  hasStaticUsers : Bool

def patchExistingHysteriaConfig (cfg : Object) (statsListen statsSecret : String) : Patched :=
  let patched := cfg.set "auth" (.object [("type", .text "http"),
    ("http", .object [("url", .text "http://127.0.0.1:28262/auth")])])
  let patched := patched.set "trafficStats" (.object [("listen", .text statsListen),
    ("secret", .text statsSecret)])
  { config := patched
    port := listenPort (sprintKey patched "listen")
    hasStaticUsers := hasStaticAuthUsers (cfg.getObject "auth") }

def restoreConfigKey (current backup : Object) (key : String) : Object :=
  match backup.get key with
  | none => current.erase key
  | some value => current.set key value

def restoreAttachManagedHysteriaConfig (current backup : Object) : Object :=
  restoreConfigKey (restoreConfigKey current backup "auth") backup "trafficStats"

/-- The configuration file after settings were applied; settings that `Runtime` refuses leave it
as it is. -/
def applySettings (L : Library) (current : Object) (settings : Config × String) : Object :=
  match settings.1.runtime L current settings.2 with
  | .ok next => next
  | .error _ => current

/-! ## The keys that stay the owner's -/

theorem get_restoreConfigKey_self (current backup : Object) (key : String) :
    (restoreConfigKey current backup key).get key = backup.get key := by
  unfold restoreConfigKey
  cases h : backup.get key with
  | none => exact Object.get_erase_self current key
  | some value => exact Object.get_set_self current key value

theorem get_restoreConfigKey_of_ne (current backup : Object) {key key' : String} (h : key' ≠ key) :
    (restoreConfigKey current backup key).get key' = current.get key' := by
  unfold restoreConfigKey
  cases backup.get key with
  | none => exact Object.get_erase_of_ne current h
  | some value => exact Object.get_set_of_ne current value h

variable {key : String}

theorem get_patch_of_ne (cfg : Object) (statsListen statsSecret : String) (hauth : key ≠ "auth")
    (hstats : key ≠ "trafficStats") :
    (patchExistingHysteriaConfig cfg statsListen statsSecret).config.get key = cfg.get key := by
  unfold patchExistingHysteriaConfig
  rw [Object.get_set_of_ne _ _ hstats, Object.get_set_of_ne _ _ hauth]

variable (L : Library)

theorem get_applySettings_of_not_mem (current : Object) (settings : Config × String)
    (h : key ∉ managedKeys) :
    (applySettings L current settings).get key = current.get key := by
  unfold applySettings
  cases hrun : settings.1.runtime L current settings.2 with
  | error e => rfl
  | ok next => exact get_runtime_of_not_mem hrun h

variable (settings : List (Config × String))

theorem get_foldl_applySettings (current : Object) (h : key ∉ managedKeys) :
    (settings.foldl (applySettings L) current).get key = current.get key := by
  induction settings generalizing current with
  | nil => rfl
  | cons c settings ih =>
    rw [List.foldl_cons, ih, get_applySettings_of_not_mem L current c h]

variable {field : String}

theorem acme_applySettings (current : Object) (settings : Config × String) (h : field ≠ "domains") :
    ((applySettings L current settings).getObject "acme").bind (·.get field) =
      (current.getObject "acme").bind (·.get field) := by
  unfold applySettings
  cases hrun : settings.1.runtime L current settings.2 with
  | error e => rfl
  | ok next => exact acme_runtime hrun h

theorem acme_foldl_applySettings (current : Object) (h : field ≠ "domains") :
    ((settings.foldl (applySettings L) current).getObject "acme").bind (·.get field) =
      (current.getObject "acme").bind (·.get field) := by
  induction settings generalizing current with
  | nil => rfl
  | cons c settings ih =>
    rw [List.foldl_cons, ih, acme_applySettings L current c h]

theorem get_restore_of_ne (current backup : Object) (hauth : key ≠ "auth")
    (hstats : key ≠ "trafficStats") :
    (restoreAttachManagedHysteriaConfig current backup).get key = current.get key := by
  unfold restoreAttachManagedHysteriaConfig
  rw [get_restoreConfigKey_of_ne _ _ hstats, get_restoreConfigKey_of_ne _ _ hauth]

/-- Attach, any settings, detach: `auth` and `trafficStats` are the owner's again, every key that
`Runtime` does not manage is as it was, and of the part about the certificate everything but the
domains. -/
theorem detach_gives_back (L : Library) (original : Object) (statsListen statsSecret : String)
    (settings : List (Config × String)) :
    let attached := (patchExistingHysteriaConfig original statsListen statsSecret).config
    let restored := restoreAttachManagedHysteriaConfig
      (settings.foldl (applySettings L) attached) original
    restored.get "auth" = original.get "auth" ∧
      restored.get "trafficStats" = original.get "trafficStats" ∧
      (∀ key, key ∉ managedKeys → restored.get key = original.get key) ∧
      ∀ field, field ≠ "domains" →
        (restored.getObject "acme").bind (·.get field) =
          (original.getObject "acme").bind (·.get field) := by
  intro attached restored
  have hauth : restored.get "auth" = original.get "auth" := by
    change Object.get (restoreConfigKey _ original "trafficStats") "auth" = _
    rw [get_restoreConfigKey_of_ne _ _ (by decide), get_restoreConfigKey_self]
  have hstats : restored.get "trafficStats" = original.get "trafficStats" :=
    get_restoreConfigKey_self _ _ _
  refine ⟨hauth, hstats, fun key hkey => ?_, fun field hfield => ?_⟩
  · by_cases hk : key = "auth"
    · rw [hk, hauth]
    by_cases hk' : key = "trafficStats"
    · rw [hk', hstats]
    · rw [get_restore_of_ne _ _ hk hk', get_foldl_applySettings L settings attached hkey]
      exact get_patch_of_ne original statsListen statsSecret hk hk'
  · have hrestored : restored.get "acme" =
        (settings.foldl (applySettings L) attached).get "acme" :=
      get_restore_of_ne _ original (by decide) (by decide)
    rw [getObject_congr hrestored, acme_foldl_applySettings L settings attached hfield,
      getObject_congr (get_patch_of_ne original statsListen statsSecret (by decide) (by decide))]

end LazGate.Provisioning
