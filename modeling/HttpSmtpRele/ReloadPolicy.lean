import HttpSmtpRele.AppState
import HttpSmtpRele.Auth
import HttpSmtpRele.ConfigValidate
import HttpSmtpRele.KeyIdentity
import HttpSmtpRele.OpenRelay

/-!
# Reloads during a request

A request reads the config twice: the `AuthContext` extractor takes one snapshot
and the handler, `send_mail` or `send_bulk`, another, with only the key's id
carried over.  Any number of reloads may come before, between and after.  If the
first entry with that id in the handler's snapshot is the caller's, what it accepts
is permitted by the key's policy there (`accepted_permitted_in_force`); if the key
is gone, the policy lookup finds nothing and nothing is checked
(`reload_removes_policy`).
-/

namespace HttpSmtpRele

inductive RequestPhase
  | waiting
  | authenticated (auth : AuthContext)
  /-- The handler runs on its own snapshot. -/
  | handling (auth : AuthContext) (cfg : AppConfig)

structure ReloadRun (ρ : Type) where
  app : AppState ρ
  /-- The configs in force since the extractor took its snapshot (before that,
  since the start), newest first. -/
  inForce : List AppConfig
  phase : RequestPhase

inductive ReloadEvent
  | reload (newConfig : AppConfig)
  | authenticate
  | handle

namespace ReloadRun

variable {ρ : Type} (features : Features) (D : Deps) (parts : Parts)

def start (app : AppState ρ) : ReloadRun ρ where
  app := app
  inForce := [app.config]
  phase := .waiting

/-- A reload: the config in force changes, the snapshots do not. -/
def reloaded (s : ReloadRun ρ) (newConfig : AppConfig) : ReloadRun ρ :=
  let app := s.app.reloadConfig newConfig
  { s with app := app, inForce := app.config :: s.inForce }

/-- `none`: the event cannot happen in this state. -/
def step (s : ReloadRun ρ) : ReloadEvent → Option (ReloadRun ρ)
  | .reload newConfig =>
    match ConfigValidate.validateConfig features D newConfig with
    | .error _ => none
    | .ok () => some (s.reloaded newConfig)
  | .authenticate =>
    match s.phase, Auth.fromRequestParts D s.app.config parts with
    | .waiting, .ok auth =>
      some { s with inForce := [s.app.config], phase := .authenticated auth }
    | _, _ => none
  | .handle =>
    match s.phase with
    | .authenticated auth => some { s with phase := .handling auth s.app.config }
    | _ => none

def run (s : ReloadRun ρ) : List ReloadEvent → Option (ReloadRun ρ)
  | [] => some s
  | ev :: evs => (step features D parts s ev).bind fun s' => run s' evs

/-- The entry that the secret of the request authenticates under the config. -/
def presented (config : AppConfig) : Option ApiKeyConfig :=
  (Auth.extractToken parts).bind (Auth.matchedKey config.security.apiKeys)

/-- The entry of the caller's key: the one its secret matches, or the only one with
its id. -/
structure EntryOf (config : AppConfig) (keyId : String) (e : ApiKeyConfig) : Prop where
  listed : e ∈ config.security.apiKeys
  id : e.id = keyId
  own : presented parts config = some e ∨ ∀ k ∈ config.security.apiKeys, k.id = keyId → k = e

/-- The lookups by id find the caller's entry. -/
def FindsOwn (config : AppConfig) (keyId : String) : Prop :=
  ∃ e, Policy.findKey config keyId = some e ∧ EntryOf parts config keyId e

/-- The condition on a step: the handler's snapshot finds the caller's entry. -/
def KeyFound (s : ReloadRun ρ) : ReloadEvent → Prop
  | .handle => ∀ auth, s.phase = .authenticated auth → FindsOwn parts s.app.config auth.keyId
  | _ => True

/-- Every step of the run meets the condition. -/
def KeyFoundThroughout : ReloadRun ρ → List ReloadEvent → Prop
  | _, [] => True
  | s, ev :: evs =>
    KeyFound parts s ev ∧ ∀ s', step features D parts s ev = some s' → KeyFoundThroughout s' evs

/-- The invariant: both snapshots are among the configs in force, and the
handler's finds the caller's entry. -/
structure Inv (s : ReloadRun ρ) : Prop where
  current : s.app.config ∈ s.inForce
  authenticated : ∀ auth, s.phase = .authenticated auth →
    ∃ c ∈ s.inForce, Auth.fromRequestParts D c parts = .ok auth
  handling : ∀ auth cfg, s.phase = .handling auth cfg →
    (∃ c ∈ s.inForce, Auth.fromRequestParts D c parts = .ok auth) ∧ cfg ∈ s.inForce ∧
      FindsOwn parts cfg auth.keyId

theorem inv_start (app : AppState ρ) : Inv D parts (start app) where
  current := List.mem_singleton_self _
  authenticated _ h := by cases h
  handling _ _ h := by cases h

variable {features D parts}

theorem step_reload {s : ReloadRun ρ} {newConfig : AppConfig}
    (h : ConfigValidate.Accepted features D newConfig) :
    step features D parts s (.reload newConfig) = some (s.reloaded newConfig) := by
  unfold ConfigValidate.Accepted at h
  simp [step, h]

theorem inv_reloaded {s : ReloadRun ρ} (hinv : Inv D parts s) (newConfig : AppConfig) :
    Inv D parts (s.reloaded newConfig) := by
  obtain ⟨-, hauth, hhandling⟩ := hinv
  refine ⟨List.mem_cons_self, fun auth h => ?_, fun auth cfg h => ?_⟩
  · obtain ⟨c, hc, hok⟩ := hauth auth h
    exact ⟨c, List.mem_cons_of_mem _ hc, hok⟩
  · obtain ⟨⟨c, hc, hok⟩, hmem, hown⟩ := hhandling auth cfg h
    exact ⟨⟨c, List.mem_cons_of_mem _ hc, hok⟩, List.mem_cons_of_mem _ hmem, hown⟩

theorem inv_step {s s' : ReloadRun ρ} {ev : ReloadEvent} (hinv : Inv D parts s)
    (hkey : KeyFound parts s ev) (h : step features D parts s ev = some s') : Inv D parts s' := by
  cases ev with
  | reload newConfig =>
    unfold step at h
    dsimp only at h
    split at h
    · cases h
    · obtain rfl := Option.some.inj h
      exact inv_reloaded hinv newConfig
  | authenticate =>
    unfold step at h
    dsimp only at h
    split at h
    · rename_i auth _ hok
      obtain rfl := Option.some.inj h
      refine ⟨List.mem_singleton_self _, fun auth' h => ?_, fun _ _ h => (nomatch h)⟩
      cases h
      exact ⟨s.app.config, List.mem_singleton_self _, hok⟩
    · cases h
  | handle =>
    unfold step at h
    dsimp only at h
    split at h
    · rename_i auth hp
      obtain rfl := Option.some.inj h
      refine ⟨hinv.current, fun _ h => (nomatch h), fun auth' cfg h => ?_⟩
      cases h
      exact ⟨hinv.authenticated auth hp, hinv.current, hkey auth hp⟩
    · cases h

theorem inv_run {evs : List ReloadEvent} {s s' : ReloadRun ρ} (hinv : Inv D parts s)
    (hkeys : KeyFoundThroughout features D parts s evs)
    (h : run features D parts s evs = some s') : Inv D parts s' := by
  induction evs generalizing s with
  | nil =>
    cases h
    exact hinv
  | cons ev evs ih =>
    obtain ⟨s₁, hstep, hrun⟩ := Option.bind_eq_some_iff.mp h
    exact ih (inv_step hinv hkeys.1 hstep) (hkeys.2 s₁ hstep) hrun

end ReloadRun

open ReloadRun in
/-- In every run in which the handler's snapshot finds the caller's entry, an accepted
recipient is permitted by the policy of that entry, in the snapshot, which was in
force during the request. -/
theorem accepted_permitted_in_force {ρ : Type} {features : Features} {D : Deps} {parts : Parts}
    {app : AppState ρ} {evs : List ReloadEvent} {s : ReloadRun ρ}
    (_startup : ConfigValidate.Accepted features D app.config)
    (hrun : run features D parts (start app) evs = some s)
    (hkeys : KeyFoundThroughout features D parts (start app) evs)
    {auth : AuthContext} {cfg : AppConfig} (hphase : s.phase = .handling auth cfg)
    {req : MailRequest} {v : ValidatedMailRequest}
    (hvalid : Validation.validateMailRequest D req cfg auth = .ok v)
    {addr : String} (haddr : addr ∈ req.recipients) :
    (∃ c ∈ s.inForce, Auth.fromRequestParts D c parts = .ok auth) ∧ cfg ∈ s.inForce ∧
      ∃ e, EntryOf parts cfg auth.keyId e ∧ KeyPermits D e addr := by
  have hinv := inv_run (inv_start D parts app) hkeys hrun
  obtain ⟨hauth, hmem, e, hfind, hentry⟩ := hinv.handling auth cfg hphase
  have hpassed := Validation.validate_ok D hvalid
  have hrec : addr ∈ v.toAddrs ++ v.cc := by
    rw [hpassed.toAddrs, hpassed.cc]
    exact haddr
  have hp := (hpassed.accepted addr hrec).permitted
  obtain ⟨d, hd, -, hkey⟩ := hp.domain
  exact ⟨hauth, hmem, e, hentry, hp.recipient e hfind, d, hd, hkey e hfind⟩

/-! ## The key disappears between the two snapshots -/

def confinedConfig : AppConfig :=
  .default "127.0.0.1:8080" "relay@example.com" [confinedKey]

/-- The same file after the entry was replaced by another. -/
def replacedConfig : AppConfig :=
  .default "127.0.0.1:8080" "relay@example.com" [{ openKey with id := "other" }]

/-- `X-API-Key` with the secret of the confined entry. -/
def confinedParts : Parts where
  headers := [("x-api-key",
    confinedKey.secret.expose.toList.map fun c => UInt8.ofNat c.toNat)]
  peer := none

def confinedAuth : AuthContext where
  keyId := "svc"
  clientIp := .localhost
  keyRateLimitPerMin := none
  keyBurst := 0

def requestTo (addr : String) : MailRequest where
  toAddrs := [addr]
  subject := "hello"
  body := "text"
  fromName := none
  replyTo := none
  bodyHtml := none
  cc := none
  attachments := none
  metadata := none

theorem confinedConfig_accepted : ConfigValidate.Accepted {} .plain confinedConfig := by
  unfold ConfigValidate.Accepted
  decide

theorem replacedConfig_accepted : ConfigValidate.Accepted {} .plain replacedConfig := by
  unfold ConfigValidate.Accepted
  decide

/-- The state after authentication, a reload of `newConfig` and the handler's snapshot. -/
def reloadedBetween (newConfig : AppConfig) : ReloadRun Unit :=
  let app := (AppState.new confinedConfig ()).reloadConfig newConfig
  { app := app
    inForce := [app.config, confinedConfig]
    phase := .handling confinedAuth app.config }

theorem step_authenticate_confined :
    ReloadRun.step {} .plain confinedParts (.start (.new confinedConfig ())) .authenticate =
      some { ReloadRun.start (AppState.new confinedConfig ()) with
        phase := .authenticated confinedAuth } := by
  have hauth : Auth.fromRequestParts .plain confinedConfig confinedParts = .ok confinedAuth := by
    decide
  simp [ReloadRun.step, ReloadRun.start, AppState.new, hauth]

theorem run_reloadedBetween {newConfig : AppConfig}
    (h : ConfigValidate.Accepted {} .plain newConfig) :
    ReloadRun.run {} .plain confinedParts (.start (.new confinedConfig ()))
      [.authenticate, .reload newConfig, .handle] = some (reloadedBetween newConfig) := by
  rw [ReloadRun.run, step_authenticate_confined, Option.bind_some, ReloadRun.run,
    ReloadRun.step_reload h]
  rfl

/-- The same file with a namesake added behind the entry. -/
def extendedConfig : AppConfig :=
  .default "127.0.0.1:8080" "relay@example.com" [confinedKey, openKey]

theorem extendedConfig_accepted : ConfigValidate.Accepted {} .plain extendedConfig := by
  unfold ConfigValidate.Accepted
  decide

/-- With a reload that keeps the entry in front, the permitted address is accepted as
`accepted_permitted_in_force` says. -/
theorem accepted_permitted_confined :
    ReloadRun.run {} .plain confinedParts (.start (.new confinedConfig ()))
        [.authenticate, .reload extendedConfig, .handle] =
          some (reloadedBetween extendedConfig) ∧
      ∃ cfg, (reloadedBetween extendedConfig).phase = .handling confinedAuth cfg ∧
        cfg ∈ (reloadedBetween extendedConfig).inForce ∧
        ∃ e, ReloadRun.EntryOf confinedParts cfg confinedAuth.keyId e ∧
          KeyPermits .plain e "ops@example.com" := by
  have hrun := run_reloadedBetween extendedConfig_accepted
  have hphase : (reloadedBetween extendedConfig).phase =
      .handling confinedAuth (mergeReloadable confinedConfig extendedConfig) := rfl
  obtain ⟨v, hvalid⟩ : ∃ v, Validation.validateMailRequest .plain (requestTo "ops@example.com")
      (mergeReloadable confinedConfig extendedConfig) confinedAuth = .ok v := ⟨_, rfl⟩
  refine ⟨hrun, _, hphase, (accepted_permitted_in_force confinedConfig_accepted hrun ?_ hphase
    hvalid (List.mem_singleton_self _)).2⟩
  have hown : ReloadRun.FindsOwn confinedParts (mergeReloadable confinedConfig extendedConfig)
      confinedAuth.keyId :=
    ⟨confinedKey, rfl, ⟨by decide, rfl, Or.inl (by decide)⟩⟩
  refine ⟨trivial, fun s₁ h₁ => ⟨trivial, fun s₂ h₂ => ⟨fun auth hauth => ?_, fun _ _ => trivial⟩⟩⟩
  rw [step_authenticate_confined] at h₁
  cases h₁
  rw [ReloadRun.step_reload extendedConfig_accepted] at h₂
  cases h₂
  cases hauth
  exact hown

/-- A reload that removes the entry lets the request, authenticated with it,
send where the entry never allowed. -/
theorem reload_removes_policy :
    ConfigValidate.Accepted {} .plain confinedConfig ∧
      ConfigValidate.Accepted {} .plain replacedConfig ∧
      ReloadRun.run {} .plain confinedParts (.start (.new confinedConfig ()))
          [.authenticate, .reload replacedConfig, .handle] =
        some (reloadedBetween replacedConfig) ∧
      (∃ cfg v, (reloadedBetween replacedConfig).phase = .handling confinedAuth cfg ∧
        Validation.validateMailRequest .plain (requestTo "eve@example.org") cfg confinedAuth =
          .ok v) ∧
      ∀ c ∈ (reloadedBetween replacedConfig).inForce, ∀ e ∈ c.security.apiKeys,
        e.id = confinedAuth.keyId → ¬KeyPermits .plain e "eve@example.org" := by
  refine ⟨confinedConfig_accepted, replacedConfig_accepted,
    run_reloadedBetween replacedConfig_accepted, ⟨_, _, rfl, rfl⟩, fun c hc e he hid h => ?_⟩
  have hr := h.recipient
  have hconfined : ∀ c ∈ (reloadedBetween replacedConfig).inForce, ∀ e ∈ c.security.apiKeys,
      e.id = confinedAuth.keyId →
        Policy.addressPermittedForKey e "eve@example.org" = false := by decide
  rw [hconfined c hc e he hid] at hr
  cases hr

end HttpSmtpRele
