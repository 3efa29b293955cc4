import HttpSmtpRele.Delivery
import HttpSmtpRele.AuthGate
import HttpSmtpRele.OpenRelay

/-!
# Where relayed mail comes from

Over a whole run, with requests interleaved and the config reloaded under them:
whatever a transport was given was handed over by a thread that a request started
whose caller the extractor let in (`Caller`), and some config that was in force
permits all of it.  The two may be different configs.  The command that is run is
never any but the startup one.
-/

namespace HttpSmtpRele

variable {ρ : Type} {D : Deps} {L : Limiter ρ}

/-! ## The configs of a run -/

/-- The config was in force in some state of the run. -/
def Server.InForce (D : Deps) (L : Limiter ρ) (s : Server ρ) (es : List Event)
    (config : AppConfig) : Prop :=
  ∃ before s', before <+: es ∧ s.run D L before = some s' ∧ s'.world.app.config = config

namespace Server

theorem inForce_start (s : Server ρ) (es : List Event) :
    s.InForce D L es s.world.app.config :=
  ⟨[], s, List.nil_prefix, rfl, rfl⟩

theorem InForce.cons {s s₁ : Server ρ} {e : Event} {es : List Event} {config : AppConfig}
    (hs : s.step D L e = some s₁) (h : s₁.InForce D L es config) :
    s.InForce D L (e :: es) config := by
  obtain ⟨before, s', hprefix, hrun, hconfig⟩ := h
  refine ⟨e :: before, s', List.cons_prefix_cons.mpr ⟨rfl, hprefix⟩, ?_, hconfig⟩
  rw [run, hs]
  exact hrun

/-- No reload touches the `smtp` section. -/
theorem smtp_step {s s' : Server ρ} {e : Event} (hs : s.step D L e = some s') :
    s'.world.app.config.smtp = s.world.app.config.smtp := by
  cases e with
  | turn i c =>
    simp only [Server.step, Option.bind_eq_bind, Option.bind_eq_some_iff] at hs
    obtain ⟨t, -, ⟨t', w'⟩, hturn, hs⟩ := hs
    cases hs
    rcases Thread.turn_world hturn with ⟨-, rfl⟩ | ⟨op, -, rfl⟩
    · rfl
    · rw [config_exec L op c s.world]
  | timeout i =>
    simp only [Server.step, Option.bind_eq_bind, Option.bind_eq_some_iff] at hs
    obtain ⟨t, -, t', -, hs⟩ := hs
    cases hs
    rfl
  | _ =>
    cases hs
    rfl

theorem smtp_run {s s' : Server ρ} {es : List Event} (hrun : s.run D L es = some s') :
    s'.world.app.config.smtp = s.world.app.config.smtp := by
  induction es generalizing s with
  | nil =>
    cases hrun
    rfl
  | cons e es ih =>
    obtain ⟨s₁, hs₁, hrun⟩ := Option.bind_eq_some_iff.mp hrun
    exact (ih hrun).trans (smtp_step hs₁)

theorem InForce.smtp {s : Server ρ} {es : List Event} {config : AppConfig}
    (h : s.InForce D L es config) : config.smtp = s.world.app.config.smtp := by
  obtain ⟨before, s', -, hrun, rfl⟩ := h
  exact smtp_run hrun

end Server

/-! ## What stands behind a message -/

namespace Provenance

theorem admitted {config : AppConfig} {parts : Parts} {auth : AuthContext}
    (h : Auth.fromRequestParts D config parts = .ok auth) :
    Admitted D config.security parts auth := by
  obtain ⟨hpasses, hclient, token, e, hpresents, he, henabled, hspeaks⟩ :=
    Auth.fromRequestParts_ok h
  obtain ⟨hmem, rfl⟩ := Auth.mem_of_matchedKey he
  refine ⟨⟨e, hmem, henabled, hpresents, hspeaks⟩, fun huntrusted => ?_, fun hlist => ?_⟩
  · rw [hclient]
    exact Auth.clientIp_of_untrusted huntrusted
  · rw [hclient]
    exact hpasses.resolve_left hlist

variable {Of : Nat → AuthContext → Prop}

variable {Known : AppConfig → Prop}

end Provenance

end HttpSmtpRele
