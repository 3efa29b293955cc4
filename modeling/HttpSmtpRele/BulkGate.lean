import HttpSmtpRele.RefusalCode
import HttpSmtpRele.ReloadHistory
import HttpSmtpRele.ReloadPolicy
import HttpSmtpRele.Server

/-!
# The bulk-send gate

`build_router` reads the config once.  It gives `/v1/send-bulk` the handler or a
closure that answers `404`, and the router keeps what it was given, while a
reload replaces the `mail` section.  `Site` is the server behind its router.
-/

namespace HttpSmtpRele

open Api

/-! ## `api.rs`: the router -/

/-- What answers `POST /v1/send-bulk`. -/
inductive BulkRoute
  | sendBulk
  /-- `|| async { StatusCode::NOT_FOUND }` -/
  | notFound
  deriving DecidableEq

/-- What `build_router` takes from the config, apart from the request timeout, which may
pass at any time here, and the cap on concurrent requests. -/
structure Router where
  maxBody : Nat
  bulkRoute : BulkRoute

def buildRouter (cfg : AppConfig) : Router where
  maxBody := cfg.server.maxRequestBodyBytes
  bulkRoute := if cfg.mail.allowBulkSend then .sendBulk else .notFound

/-! ## Requests to `/v1/send-bulk` -/

structure BulkPost where
  bulkReqId : RequestId
  parts : Parts
  /-- what `Json` makes of the body, if it can: with each message the id that
  `RequestId::new()` will give it -/
  payload : Option (List (MailRequest × RequestId))

inductive BulkReply
  | notFound
  | unauthenticated (rejection : AuthRejection)
  /-- `Json` rejects the body -/
  | unreadable
  | refused (e : AppError)
  /-- The messages are started; `Server.answerBulk` is the answer to come. -/
  | started (number : Nat)

/-- The extractors of `send_bulk`, and its start. -/
def Server.handleBulk {ρ : Type} (D : Deps) (s : Server ρ) (post : BulkPost) :
    BulkReply × Server ρ :=
  match Auth.fromRequestParts D s.world.app.config post.parts with
  | .error rejection => (.unauthenticated rejection, s)
  | .ok auth =>
    match post.payload with
    | none => (.unreadable, s)
    | some messages =>
      let reply :=
        match checkBulk s.world.app.config (messages.map Prod.fst) with
        | .error e => .refused e
        | .ok () => .started s.threads.length
      (reply, { s with
        threads := s.threads ++ s.arrivals D (.postBulk post.bulkReqId auth messages) })

structure Site (ρ : Type) where
  router : Router
  server : Server ρ

inductive SiteEvent
  | postBulk (post : BulkPost)
  /-- `SIGHUP`, with the result of `config::load` -/
  | hangup (load : Except String AppConfig)
  /-- any other event of the server -/
  | other (e : Event)

/-- Neither a reload nor a request to `/v1/send-bulk`. -/
def Event.isOther : Event → Bool
  | postBulk _ _ _ => false
  | reload _ => false
  | _ => true

namespace Site

variable {ρ : Type}

/-- `AppState::new` and `build_router`, once. -/
def start (app : AppState ρ) : Site ρ :=
  let router := buildRouter app.config
  { router := router
    server := { world := { app := app, bodyLimit := router.maxBody, handed := [] }, threads := [] } }

/-- The config in force. -/
def config (s : Site ρ) : AppConfig := s.server.world.app.config

def postBulk (D : Deps) (s : Site ρ) (post : BulkPost) : BulkReply × Server ρ :=
  match s.router.bulkRoute with
  | .notFound => (.notFound, s.server)
  | .sendBulk => s.server.handleBulk D post

def step (D : Deps) (L : Limiter ρ) (s : Site ρ) : SiteEvent → Option (Site ρ)
  | .postBulk post => some { s with server := (s.postBulk D post).2 }
  | .hangup (.error _) => some s
  | .hangup (.ok newConfig) =>
    (s.server.step D L (.reload newConfig)).map fun server => { s with server := server }
  | .other e =>
    if e.isOther then (s.server.step D L e).map fun server => { s with server := server } else none

def run (D : Deps) (L : Limiter ρ) : Site ρ → List SiteEvent → Option (Site ρ)
  | s, [] => some s
  | s, ev :: evs => (s.step D L ev).bind fun s' => run D L s' evs

/-- The loads of a run, in order. -/
def loads : List SiteEvent → List (Except String AppConfig)
  | [] => []
  | .hangup load :: evs => load :: loads evs
  | _ :: evs => loads evs

/-- The gate follows the config in force: a request is answered `404` and starts
nothing, or is `send_bulk`'s, as `allow_bulk_send` there says. -/
structure GateFollows (D : Deps) (s : Site ρ) : Prop where
  off : s.config.mail.allowBulkSend = false → ∀ post, s.postBulk D post = (.notFound, s.server)
  on : s.config.mail.allowBulkSend = true → ∀ post, s.postBulk D post = s.server.handleBulk D post

end Site

theorem bulkRoute_inj {a b : AppConfig} :
    (buildRouter a).bulkRoute = (buildRouter b).bulkRoute ↔
      a.mail.allowBulkSend = b.mail.allowBulkSend := by
  cases ha : a.mail.allowBulkSend with
  | false => cases hb : b.mail.allowBulkSend <;> simp [buildRouter, ha, hb]
  | true => cases hb : b.mail.allowBulkSend <;> simp [buildRouter, ha, hb]

/-! ## What a step changes -/

section
variable {ρ : Type} {D : Deps} {L : Limiter ρ}

/-- Only a reload changes the config in force. -/
theorem Server.step_config {s s' : Server ρ} {e : Event} (he : e.isOther = true)
    (h : s.step D L e = some s') : s'.world.app.config = s.world.app.config := by
  cases e with
  | turn i c =>
    simp only [Server.step, Option.bind_eq_bind, Option.bind_eq_some_iff] at h
    obtain ⟨t, -, ⟨t', w'⟩, hturn, hs'⟩ := h
    cases hs'
    rcases Thread.turn_world hturn with ⟨-, rfl⟩ | ⟨op, -, rfl⟩
    · rfl
    · exact config_exec L op c s.world
  | timeout i =>
    simp only [Server.step, Option.bind_eq_bind, Option.bind_eq_some_iff] at h
    obtain ⟨t, -, t', -, hs'⟩ := h
    cases hs'
    rfl
  | postBulk bulkId auth messages => cases he
  | reload config => cases he
  | post rid parts =>
    cases h
    rfl
  | lookup rid keyId =>
    cases h
    rfl
  | sweep =>
    cases h
    rfl
  | timeoutBulk i =>
    cases h
    rfl

theorem Server.handleBulk_world (s : Server ρ) (post : BulkPost) :
    (s.handleBulk D post).2.world = s.world := by
  unfold handleBulk
  cases Auth.fromRequestParts D s.world.app.config post.parts with
  | error rejection => rfl
  | ok auth =>
    cases post.payload with
    | none => rfl
    | some messages => rfl

/-- `send_bulk` never answers `404`. -/
theorem Server.handleBulk_ne_notFound (s : Server ρ) (post : BulkPost) :
    (s.handleBulk D post).1 ≠ .notFound := by
  unfold handleBulk
  cases Auth.fromRequestParts D s.world.app.config post.parts with
  | error rejection => simp
  | ok auth =>
    cases post.payload with
    | none => simp
    | some messages =>
      cases hcheck : checkBulk s.world.app.config (messages.map Prod.fst) with
      | error e => simp [hcheck]
      | ok u => simp [hcheck]

/-- `send_bulk` starts the messages of a request that it admits. -/
theorem Server.handleBulk_started (s : Server ρ) (post : BulkPost) (n : Nat) :
    (s.handleBulk D post).1 = .started n ↔ n = s.threads.length ∧ ∃ auth messages,
      Auth.fromRequestParts D s.world.app.config post.parts = .ok auth ∧
        post.payload = some messages ∧
        checkBulk s.world.app.config (messages.map Prod.fst) = .ok () := by
  unfold handleBulk
  cases Auth.fromRequestParts D s.world.app.config post.parts with
  | error rejection => simp
  | ok auth =>
    cases post.payload with
    | none => simp
    | some messages =>
      cases hcheck : checkBulk s.world.app.config (messages.map Prod.fst) with
      | error e => simp [hcheck]
      | ok u => simp [hcheck, eq_comm]

namespace Site

/-- One event keeps the router, and reloads the config as it says. -/
theorem step_config {s s' : Site ρ} {ev : SiteEvent} (h : s.step D L ev = some s') :
    s'.router = s.router ∧ s'.config = reloadMerge.run s.config (loads [ev]) := by
  cases ev with
  | postBulk post =>
    cases h
    refine ⟨rfl, ?_⟩
    show (s.postBulk D post).2.world.app.config = s.config
    unfold postBulk
    cases s.router.bulkRoute with
    | notFound => rfl
    | sendBulk =>
      show (s.server.handleBulk D post).2.world.app.config = s.config
      rw [Server.handleBulk_world]
      rfl
  | hangup load =>
    cases load with
    | error e =>
      cases h
      exact ⟨rfl, rfl⟩
    | ok newConfig =>
      cases h
      exact ⟨rfl, rfl⟩
  | other e =>
    unfold step at h
    dsimp only at h
    split at h
    · rename_i he
      obtain ⟨server, hserver, rfl⟩ := Option.map_eq_some_iff.mp h
      exact ⟨rfl, Server.step_config he hserver⟩
    · cases h

theorem loads_cons (ev : SiteEvent) (evs : List SiteEvent) :
    loads (ev :: evs) = loads [ev] ++ loads evs := by
  cases ev <;> rfl

/-- A run keeps the router, and reloads the config as its loads say. -/
theorem run_config {evs : List SiteEvent} {s s' : Site ρ} (h : s.run D L evs = some s') :
    s'.router = s.router ∧ s'.config = reloadMerge.run s.config (loads evs) := by
  induction evs generalizing s with
  | nil =>
    cases h
    exact ⟨rfl, rfl⟩
  | cons ev evs ih =>
    obtain ⟨s₁, hstep, hrun⟩ := Option.bind_eq_some_iff.mp h
    obtain ⟨hrouter, hconfig⟩ := ih hrun
    obtain ⟨hkept, hloaded⟩ := step_config hstep
    refine ⟨hrouter.trans hkept, ?_⟩
    rw [hconfig, hloaded, loads_cons ev evs]
    exact (List.foldl_append).symm

/-- The gate follows the config where the route is the one that `build_router`
would choose now. -/
theorem gateFollows_iff {s : Site ρ} :
    GateFollows D s ↔ s.router.bulkRoute = (buildRouter s.config).bulkRoute := by
  -- any request tells the two routes apart
  let post : BulkPost := ⟨⟨""⟩, { headers := [], peer := none }, none⟩
  constructor
  · intro h
    cases hflag : s.config.mail.allowBulkSend with
    | false =>
      have hpost := congrArg Prod.fst (h.off hflag post)
      unfold postBulk at hpost
      cases hroute : s.router.bulkRoute with
      | notFound => simp [buildRouter, hflag]
      | sendBulk =>
        rw [hroute] at hpost
        exact absurd hpost (Server.handleBulk_ne_notFound s.server post)
    | true =>
      have hpost := congrArg Prod.fst (h.on hflag post)
      unfold postBulk at hpost
      cases hroute : s.router.bulkRoute with
      | notFound =>
        rw [hroute] at hpost
        exact absurd hpost.symm (Server.handleBulk_ne_notFound s.server post)
      | sendBulk => simp [buildRouter, hflag]
  · intro h
    constructor
    · intro hflag post
      simp [postBulk, h, buildRouter, hflag]
    · intro hflag post
      simp [postBulk, h, buildRouter, hflag]

/-- Where the gate follows the config, a request starts its messages exactly if
`allow_bulk_send` is on and `send_bulk` admits it. -/
theorem GateFollows.started_iff {s : Site ρ} (h : GateFollows D s) (post : BulkPost) :
    (∃ n, (s.postBulk D post).1 = .started n) ↔
      s.config.mail.allowBulkSend = true ∧ ∃ auth messages,
        Auth.fromRequestParts D s.config post.parts = .ok auth ∧ post.payload = some messages ∧
          checkBulk s.config (messages.map Prod.fst) = .ok () := by
  cases hflag : s.config.mail.allowBulkSend with
  | false => simp [h.off hflag post]
  | true =>
    rw [h.on hflag post]
    simp only [Server.handleBulk_started, exists_eq_left, true_and]
    rfl

end Site

end

open Site in
/-- In every state of every run the gate follows the config in force, exactly if
the last load, if any, left `allow_bulk_send` as it was at startup. -/
theorem bulk_gate_follows_iff {ρ : Type} {D : Deps} {L : Limiter ρ} {app : AppState ρ}
    {evs : List SiteEvent} {s : Site ρ} (hrun : (Site.start app).run D L evs = some s) :
    GateFollows D s ↔ ∀ last, FieldMerge.lastLoaded (loads evs) = some last →
      last.mail.allowBulkSend = app.config.mail.allowBulkSend := by
  obtain ⟨hrouter, hconfig⟩ := run_config hrun
  rw [gateFollows_iff, hrouter, hconfig, reloadMerge.run_eq]
  cases FieldMerge.lastLoaded (loads evs) with
  | none => simp [start, config]
  | some last =>
    apply bulkRoute_inj.trans
    simp only [Option.some.injEq, forall_eq']
    exact eq_comm

/-! A file with bulk sending off, and the same file with it on. -/

/-- `confinedConfig` with `allow_bulk_send = true`. -/
def bulkSendConfig : AppConfig :=
  { confinedConfig with mail := { confinedConfig.mail with allowBulkSend := true } }

/-- A message, with the token of the key. -/
def sampleBulkPost : BulkPost where
  bulkReqId := ⟨"req_bulk"⟩
  parts := confinedParts
  payload := some [(requestTo "ops@example.com", ⟨"req_0"⟩)]

def reloadedSite (before after : AppConfig) : Site Unit where
  router := buildRouter before
  server := { world :=
      { app := (AppState.new before ()).reloadConfig after
        bodyLimit := before.server.maxRequestBodyBytes
        handed := [] }
              threads := [] }

theorem bulk_gate_follows_reloaded :
    (Site.start (AppState.new confinedConfig ())).run .plain .admitAll
        [.hangup (.ok bulkSendConfig), .hangup (.error "expected `=`"),
          .hangup (.ok confinedConfig)] =
      some (reloadedSite confinedConfig confinedConfig) ∧
    Site.GateFollows .plain (reloadedSite confinedConfig confinedConfig) := by
  have hrun : (Site.start (AppState.new confinedConfig ())).run .plain .admitAll
        [.hangup (.ok bulkSendConfig), .hangup (.error "expected `=`"),
          .hangup (.ok confinedConfig)] =
      some (reloadedSite confinedConfig confinedConfig) := rfl
  refine ⟨hrun, (bulk_gate_follows_iff hrun).mpr fun last hlast => ?_⟩
  cases hlast
  rfl

/-- A reload turns bulk sending on, and a request that `send_bulk` would start
gets `404`; a reload turns it off, and the request is started. -/
theorem flag_reloaded_route_kept :
    ConfigValidate.Accepted {} .plain confinedConfig ∧
      ConfigValidate.Accepted {} .plain bulkSendConfig ∧
      (∃ s, (Site.start (AppState.new confinedConfig ())).run .plain .admitAll
          [.hangup (.ok bulkSendConfig)] = some s ∧
        s.config.mail.allowBulkSend = true ∧
        (s.server.handleBulk .plain sampleBulkPost).1 = .started 0 ∧
        s.postBulk .plain sampleBulkPost = (.notFound, s.server) ∧
        ¬Site.GateFollows .plain s) ∧
      ∃ s, (Site.start (AppState.new bulkSendConfig ())).run .plain .admitAll
          [.hangup (.ok confinedConfig)] = some s ∧
        s.config.mail.allowBulkSend = false ∧
        (s.postBulk .plain sampleBulkPost).1 = .started 0 ∧
        (s.postBulk .plain sampleBulkPost).2.threads.length = 1 ∧
        ¬Site.GateFollows .plain s := by
  refine ⟨confinedConfig_accepted, ?_, ⟨_, rfl, rfl, rfl, rfl, fun h => ?_⟩,
    _, rfl, rfl, rfl, rfl, fun h => ?_⟩
  · unfold ConfigValidate.Accepted
    decide
  · rw [Site.gateFollows_iff] at h
    cases h
  · rw [Site.gateFollows_iff] at h
    cases h

end HttpSmtpRele
