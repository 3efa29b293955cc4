import HttpSmtpRele.AppState
import HttpSmtpRele.ReloadBoundary

/-!
# Any number of reloads

The `SIGHUP` task of `main.rs`: a load that succeeds is merged into the config in
force, one that fails is logged.  No check of `validateConfig` relates a setting
that is kept to one that is replaced, so a merge of accepted configs is accepted;
and the merge is field-wise, so a run of reloads leaves the startup config merged
with the last file that loaded.
-/

namespace HttpSmtpRele

/-! ## Merging keeps a config valid -/

namespace ConfigValidate

/-- The check on the store reads kept settings only. -/
theorem checkStatusStore_mergeReloadable (features : Features) (current new : AppConfig) :
    checkStatusStore features (mergeReloadable current new).status =
      checkStatusStore features current.status := rfl

theorem accepted_mergeReloadable {features : Features} {D : Deps} {current new : AppConfig}
    (hcurrent : Accepted features D current) (hnew : Accepted features D new) :
    Accepted features D (mergeReloadable current new) := by
  unfold Accepted validateConfig at *
  simp only [Except.guard_bind_eq_ok, checkStatusStore_mergeReloadable] at *
  obtain ⟨hbind, -, -, hport, htls, hauth, hcerts, hstore, hmode, hrates, -, -, -, -, -⟩ := hcurrent
  obtain ⟨-, hfrom, hcidrs, -, -, -, -, -, -, -, hlevel, hformat, hsecrets, hkeys, henabled⟩ := hnew
  exact ⟨hbind, hfrom, hcidrs, hport, htls, hauth, hcerts, hstore, hmode, hrates, hlevel, hformat,
    hsecrets, hkeys, henabled⟩

end ConfigValidate

/-! ## The `SIGHUP` task -/

/-- What a reload touches of `AppState`, over any status store. -/
structure Service (S : Type) where
  config : AppConfig
  store : S

namespace Service

-- `handle` is `reload_config` of the store, `ε` whatever a load can fail with.
variable {S ε : Type} (handle : S → StatusConfig → S)

def reloadConfig (s : Service S) (newConfig : AppConfig) : Service S :=
  let merged := mergeReloadable s.config newConfig
  { config := merged, store := handle s.store merged.status }

/-- One turn of the loop, with the result of `config::load`. -/
def onHangup (s : Service S) : Except ε AppConfig → Service S
  | .ok newConfig => s.reloadConfig handle newConfig
  | .error _ => s

def run (s : Service S) (loads : List (Except ε AppConfig)) : Service S :=
  loads.foldl (onHangup handle) s

theorem onHangup_config (s : Service S) (load : Except ε AppConfig) :
    (s.onHangup handle load).config = reloadMerge.reload s.config load := by
  cases load with
  | ok newConfig => rfl
  | error e => rfl

theorem run_config (s : Service S) (loads : List (Except ε AppConfig)) :
    (s.run handle loads).config = reloadMerge.run s.config loads := by
  unfold run FieldMerge.run
  induction loads generalizing s with
  | nil => rfl
  | cons load loads ih => rw [List.foldl_cons, List.foldl_cons, ih, onHangup_config]

/-- `held` is what the store remembers of the section it was handed last. -/
theorem run_held {held : S → StatusConfig} (hheld : ∀ st c, held (handle st c) = c)
    {s : Service S} (hstart : held s.store = s.config.status)
    (loads : List (Except ε AppConfig)) :
    held (s.run handle loads).store = (s.run handle loads).config.status := by
  unfold run
  induction loads generalizing s with
  | nil => exact hstart
  | cons load loads ih =>
    rw [List.foldl_cons]
    apply ih
    cases load with
    | error e => exact hstart
    | ok newConfig => exact hheld _ _

end Service

/-- The reload of the shared state is that of its config and its store. -/
theorem AppState.reloadConfig_service {ρ : Type} (s : AppState ρ) (newConfig : AppConfig) :
    (⟨(s.reloadConfig newConfig).config, (s.reloadConfig newConfig).statusStore⟩ :
        Service StatusStore) =
      Service.reloadConfig (fun store c => store.update fun m => m.reloadConfig c)
        ⟨s.config, s.statusStore⟩ newConfig := rfl

/-- What holds after any run of reloads from `start`. -/
structure Reloaded {S ε : Type} (handle : S → StatusConfig → S) (features : Features) (D : Deps)
    (start : AppConfig) (loads : List (Except ε AppConfig)) (s : Service S) : Prop where
  accepted : ConfigValidate.Accepted features D s.config
  failed : ∀ e : ε, s.onHangup handle (.error e) = s
  unloaded : FieldMerge.lastLoaded loads = none → s.config = start
  loaded : ∀ last, FieldMerge.lastLoaded loads = some last →
    s.config = mergeReloadable start last
  /-- What the next load that succeeds hands to the store. -/
  handed : ∀ newConfig, (s.onHangup handle (.ok newConfig : Except ε AppConfig)).store =
    handle s.store (s.onHangup handle (.ok newConfig : Except ε AppConfig)).config.status

/-- After any number of reloads the config in force is valid, and it is the
startup config merged with the last file that loaded. -/
theorem reloads_history_free {S ε : Type} (handle : S → StatusConfig → S) {features : Features}
    {D : Deps} {start : AppConfig} (hstart : ConfigValidate.Accepted features D start) (store : S)
    {loads : List (Except ε AppConfig)}
    (hloads : ∀ newConfig, .ok newConfig ∈ loads → ConfigValidate.Accepted features D newConfig) :
    Reloaded handle features D start loads ((⟨start, store⟩ : Service S).run handle loads) ∧
      ∀ held : S → StatusConfig, (∀ st c, held (handle st c) = c) → held store = start.status →
        held ((⟨start, store⟩ : Service S).run handle loads).store =
          ((⟨start, store⟩ : Service S).run handle loads).config.status := by
  have hconfig := Service.run_config handle ⟨start, store⟩ loads
  have hrun := reloadMerge.run_eq start loads
  refine ⟨⟨?_, fun _ => rfl, fun hnone => ?_, fun last hlast => ?_, fun _ => rfl⟩, ?_⟩
  · rw [hconfig]
    exact reloadMerge.run_preserves (P := ConfigValidate.Accepted features D)
      (fun _ _ => ConfigValidate.accepted_mergeReloadable) hstart hloads
  · rw [hconfig, hrun, hnone]
    rfl
  · rw [hconfig, hrun, hlast]
    rfl
  · intro held hheld hinit
    exact Service.run_held handle hheld hinit loads

/-! Two files that load, and one that does not between them. -/

def longerTtlConfig : AppConfig :=
  { boundaryConfig with status := { boundaryConfig.status with ttlSeconds := 7200 } }

def sampleLoads : List (Except String AppConfig) :=
  [.ok trustingConfig, .error "expected `=`", .ok longerTtlConfig]

theorem reloads_history_free_sample :
    let s := (⟨boundaryConfig, .new boundaryConfig.status⟩ : Service InMemoryStatusStore).run
      InMemoryStatusStore.reloadConfig sampleLoads
    s.config = longerTtlConfig ∧ s.store.config.ttlSeconds = 7200 := by
  have haccepted : ∀ config ∈ [boundaryConfig, trustingConfig, longerTtlConfig],
      ConfigValidate.Accepted {} .plain config := by
    unfold ConfigValidate.Accepted
    decide
  have hloads : ∀ newConfig, .ok newConfig ∈ sampleLoads →
      ConfigValidate.Accepted {} .plain newConfig := by
    intro newConfig hmem
    apply haccepted
    simp only [sampleLoads, List.mem_cons, Except.ok.injEq, List.not_mem_nil, or_false,
      reduceCtorEq, false_or] at hmem
    rcases hmem with rfl | rfl
    · simp
    · simp
  obtain ⟨hreloaded, hheld⟩ := reloads_history_free InMemoryStatusStore.reloadConfig
    (haccepted boundaryConfig (by simp)) (.new boundaryConfig.status) hloads
  have hconfig := hreloaded.loaded longerTtlConfig (by decide)
  have hsection := hheld InMemoryStatusStore.config (fun _ _ => rfl) rfl
  constructor
  · rw [hconfig]
    decide
  · rw [hsection, hconfig]
    decide

end HttpSmtpRele
