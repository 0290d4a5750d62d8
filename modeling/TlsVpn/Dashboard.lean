import TlsVpn.ConfigDiff
import TlsVpn.ConfigSecrets

/-!
The dashboard's request loop. A request is matched against the login routes, the
credential and then the routes of the management interface; two of these replace
the stored configuration. The state keeps what they change: the configuration,
the list of fields that need a restart, the sessions and the calls made to the
provider. A reply is its status; `none` is a request that stops the listener.
-/

namespace TlsVpn.Dashboard

open TlsVpn.Json TlsVpn.ConfigDiff TlsVpn.ConfigSecrets

abbrev Text := List Char

section Source

inductive Method where
  | get
  | post
  | other
  deriving DecidableEq

structure Request where
  method : Method
  url : Text
  headers : List (Text × Text)
  bodyLength : Option Nat
  body : List UInt8

structure Control where
  action : Text
  client : Text
  level : Text
  ttl : Int
  deriving DecidableEq

structure ControlReq extends Control where
  config : Option Value

structure Validated where
  loglevel : Text
  padMode : Text

structure Session (Digest : Type) where
  expires : Nat
  authHash : Digest

structure Web (Digest : Type) where
  config : Value
  needsRestart : List Text
  sessions : Text → Option (Session Digest)
  /-- the calls of the provider so far -/
  controls : List Control
  /-- the fields a `save_apply` has put in force -/
  applied : List Text

/-- What one request meets: the listener's credential, the clock, the parsers, the
hash, the static files and the outcomes of validation, writing and the provider. -/
structure Env (Digest : Type) where
  auth : Text
  now : Nat
  token : Option Text
  digest : Text → Digest
  utf8 : List UInt8 → Option Text
  base64 : Text → Option (List UInt8)
  trim : Text → Text
  parse : Text → Option Value
  parseLogin : Text → Option (Text × Text)
  parseControl : Text → Option ControlReq
  asset : Text → Bool
  validate : Value → Option Validated
  written : Bool
  accepts : Control → Bool

variable {Digest : Type} [DecidableEq Digest] (env : Env Digest) (web : Web Digest)
  (request : Request)

/-- Header fields are compared without regard to case. -/
def header (field : Text) : Option Text :=
  (request.headers.find? fun header =>
    header.1.map Char.toLower = field.map Char.toLower).map (·.2)

def basicAuthCredential : Option Text := do
  let value ← header request "Authorization".toList
  let encoded ← if "Basic ".toList <+: value then some (value.drop 6) else none
  let decoded ← env.base64 (env.trim encoded)
  env.utf8 decoded

def cookieValue (name : Text) : Text :=
  let parts := ((header request "Cookie".toList).getD []).splitOn ';'
  let named := parts.filterMap fun part =>
    let part := env.trim part
    let key := part.takeWhile (· ≠ '=')
    if '=' ∈ part ∧ key = name then some (part.drop (key.length + 1)) else none
  named.headD []

def sessionTtl : Nat := 24 * 60 * 60

def putSession (token : Text) (session : Option (Session Digest)) : Web Digest :=
  { web with sessions := Function.update web.sessions token session }

def sessionValid (token auth : Text) : Bool × Web Digest :=
  if token = [] ∨ auth = [] then (false, web)
  else match web.sessions token with
    | none => (false, web)
    | some session =>
      if session.expires ≤ env.now ∨ session.authHash ≠ env.digest auth then
        (false, putSession web token none)
      else (true, putSession web token (some { session with expires := env.now + sessionTtl }))

def dashboardAuthenticated (auth : Text) : Bool × Web Digest :=
  if auth = [] then (true, web)
  else
    let (valid, web) := sessionValid env web (cookieValue env request "tlsvpn_session".toList) auth
    if valid then (true, web)
    else ((basicAuthCredential env request).any fun got => env.digest got = env.digest auth, web)

def content (limit : Nat) : Option Text :=
  if limit < request.body.length then none else env.utf8 request.body

def login (auth : Text) : Web Digest × Nat :=
  if request.method ≠ .post then (web, 405)
  else if request.bodyLength.any (8 * 1024 < ·) then (web, 400)
  else match (content env request (8 * 1024)).bind env.parseLogin with
    | none => (web, 400)
    | some (username, password) =>
      if env.digest (username ++ ':' :: password) ≠ env.digest auth then (web, 401)
      else match env.token with
        | none => (web, 500)
        | some token =>
          let live (name : Text) := (web.sessions name).filter fun session => env.now < session.expires
          (putSession { web with sessions := live } token
            (some ⟨env.now + sessionTtl, env.digest auth⟩), 200)

def logout : Web Digest × Nat :=
  if request.method ≠ .post then (web, 405)
  else
    let token := cookieValue env request "tlsvpn_session".toList
    (if token = [] then web else putSession web token none, 200)

def accepted (candidate : Value) : Option (Option (Value × Validated)) := do
  let merged ← mergePreservingSecrets web.config candidate
  some (if env.written then (env.validate merged).map (merged, ·) else none)

def postConfig : Option (Web Digest × Nat) :=
  match (content env request (1024 * 1024)).bind env.parse with
  | none => some (web, 400)
  | some value => do
    match ← accepted env web value with
    | none => some (web, 400)
    | some (merged, _) => some ({ web with config := merged }, 200)

def hotControl (validated : Validated) (field : Text) : Option Control :=
  if field = "log_level".toList then some ⟨"loglevel".toList, [], validated.loglevel, 0⟩
  else if field = "pad_mode".toList then some ⟨"pad_mode".toList, [], validated.padMode, 0⟩
  else none

def hotFields : List Text :=
  ["log_level".toList, "pad_mode".toList, "traffic_days".toList, "traffic_file".toList]

def save (apply : Bool) (candidate : Value) : Option (Web Digest × Nat) := do
  match ← accepted env web candidate with
  | none => some (web, 400)
  | some (merged, validated) =>
    let changed := diffPaths web.config merged
    some (if apply then
      { web with
        config := merged
        needsRestart := changed.filter (· ∉ hotFields)
        controls := web.controls ++ changed.filterMap (hotControl validated)
        applied := web.applied ++ "traffic_days".toList :: "traffic_file".toList ::
          changed.filter (· ∈ hotFields) }
      else { web with config := merged, needsRestart := [] }, 200)

def csrf : Bool :=
  request.headers.any fun header =>
    header.1.map Char.toLower = "x-requested-with".toList ∧ header.2 = "tlsvpn".toList

def control : Option (Web Digest × Nat) :=
  if ¬csrf request then some (web, 403)
  else if request.bodyLength.all (64 * 1024 < ·) then some (web, 413)
  else match (content env request (64 * 1024)).bind env.parseControl with
    | none => some (web, 400)
    | some creq =>
      if creq.action = "save".toList ∨ creq.action = "save_apply".toList then
        match creq.config with
        | none => some (web, 400)
        | some candidate => save env web (creq.action = "save_apply".toList) candidate
      else
        some ({ web with controls := web.controls ++ [creq.toControl] },
          if env.accepts creq.toControl then 200 else 400)

def readRoutes : List Text :=
  ["/api/stats".toList, "/api/stream".toList, "/api/logs".toList, "/api/trend".toList,
    "/api/events".toList, "/metrics".toList]

def route (url : Text) : Option (Web Digest × Nat) :=
  match request.method with
  | .get =>
    if env.asset url ∨ url ∈ readRoutes then some (web, 200)
    else if url = "/api/config".toList then (redactedConfig web.config).map fun _ => (web, 200)
    else some (web, 404)
  | .post =>
    if url = "/api/config".toList then postConfig env web request
    else if url = "/api/control".toList then control env web request
    else some (web, 404)
  | .other => some (web, 404)

def expectedAuth : Text :=
  let auth := (secret web.config webAuth).getD []
  if auth = [] then env.auth else auth

def path : Text := request.url.takeWhile (· ≠ '?')

def loginAssets : List Text :=
  ["/login".toList, "/login.html".toList, "/login.css".toList, "/login.js".toList]

def handle : Option (Web Digest × Nat) :=
  let url := path request
  let auth := expectedAuth env web
  if auth = [] then route env web request url
  else if url = "/api/login".toList then some (login env web request auth)
  else if url = "/api/logout".toList then some (logout env web request)
  else if url = "/api/auth/status".toList then
    some ((dashboardAuthenticated env web request auth).2, 200)
  else if url ∈ loginAssets then route env web request url
  else
    let (authenticated, web) := dashboardAuthenticated env web request auth
    if authenticated then route env web request url
    else some (web, if "/api/".toList <+: url ∨ url = "/metrics".toList then 401 else 303)

end Source

section Guards

variable {Digest : Type} {env : Env Digest} {web after : Web Digest}
  {request : Request} {status : Nat}

structure Same (before after : Web Digest) : Prop where
  config : after.config = before.config
  needsRestart : after.needsRestart = before.needsRestart
  controls : after.controls = before.controls

theorem Same.trans {one two three : Web Digest} (first : Same one two) (second : Same two three) :
    Same one three :=
  ⟨second.1.trans first.1, second.2.trans first.2, second.3.trans first.3⟩

theorem logout_same : Same web (logout env web request).1 := by
  unfold logout
  split
  · exact ⟨rfl, rfl, rfl⟩
  · dsimp only
    split <;> exact ⟨rfl, rfl, rfl⟩

theorem route_same {url : Text} (run : route env web request url = some (after, status)) :
    Same web after ∨ request.method = .post ∧ (url = "/api/config".toList ∨
      url = "/api/control".toList ∧ csrf request) := by
  unfold route at run
  have stays {code : Nat} (same : some (web, code) = some (after, status)) : Same web after := by
    cases same
    exact ⟨rfl, rfl, rfl⟩
  split at run
  · split at run
    · exact .inl (stays run)
    · split at run
      · obtain ⟨_, _, run⟩ := Option.map_eq_some_iff.mp run
        exact .inl (stays (congrArg some run))
      · exact .inl (stays run)
  · rename_i post
    split at run
    · rename_i config
      exact .inr ⟨post, .inl config⟩
    · split at run
      · rename_i action
        unfold control at run
        split at run
        · exact .inl (stays run)
        · rename_i guarded
          exact .inr ⟨post, .inr ⟨action, by simpa using guarded⟩⟩
      · exact .inl (stays run)
  · exact .inl (stays run)

theorem accepted_congr {other : Web Digest} (same : other.config = web.config) (value : Value) :
    accepted env other value = accepted env web value := by
  unfold accepted
  rw [same]

theorem postConfig_cases (run : postConfig env web request = some (after, status)) :
    Same web after ∨ ∃ value merged validated,
      (content env request (1024 * 1024)).bind env.parse = some value ∧
        accepted env web value = some (some (merged, validated)) ∧ merged ≠ web.config := by
  unfold postConfig at run
  split at run
  · cases run
    exact .inl ⟨rfl, rfl, rfl⟩
  · rename_i value parsed
    obtain ⟨found, is, run⟩ := Option.bind_eq_some_iff.mp run
    cases found with
    | none =>
      cases run
      exact .inl ⟨rfl, rfl, rfl⟩
    | some pair =>
      cases run
      by_cases same : pair.1 = web.config
      · exact .inl ⟨same, rfl, rfl⟩
      · exact .inr ⟨value, pair.1, pair.2, parsed, is, same⟩

variable [DecidableEq Digest]

theorem sessionValid_same (token auth : Text) : Same web (sessionValid env web token auth).2 := by
  unfold sessionValid
  split
  · exact ⟨rfl, rfl, rfl⟩
  · split
    · exact ⟨rfl, rfl, rfl⟩
    · split <;> exact ⟨rfl, rfl, rfl⟩

theorem authenticated_same (auth : Text) : Same web (dashboardAuthenticated env web request auth).2 := by
  have same := @sessionValid_same _ env web _ (cookieValue env request "tlsvpn_session".toList) auth
  unfold dashboardAuthenticated
  split
  · exact ⟨rfl, rfl, rfl⟩
  · dsimp only
    split <;> exact same

/-- A live session of the request's cookie or the right Basic credential. -/
def Credentialed (env : Env Digest) (web : Web Digest) (request : Request) (auth : Text) : Prop :=
  (∃ session, web.sessions (cookieValue env request "tlsvpn_session".toList) = some session ∧
    env.now < session.expires ∧ session.authHash = env.digest auth) ∨
  ∃ got, basicAuthCredential env request = some got ∧ env.digest got = env.digest auth

theorem credentialed {auth : Text} (needed : auth ≠ [])
    (passed : (dashboardAuthenticated env web request auth).1 = true) :
    Credentialed env web request auth := by
  unfold dashboardAuthenticated at passed
  rw [if_neg needed] at passed
  dsimp only at passed
  split at passed
  · rename_i valid
    left
    unfold sessionValid at valid
    split at valid
    · cases valid
    · split at valid
      · cases valid
      · rename_i session found
        split at valid
        · cases valid
        · exact ⟨session, found, by grind⟩
  · right
    cases found : basicAuthCredential env request with
    | none =>
      rw [found] at passed
      cases passed
    | some got =>
      rw [found] at passed
      exact ⟨got, rfl, of_decide_eq_true passed⟩

theorem login_same (auth : Text) : Same web (login env web request auth).1 := by
  unfold login
  repeat' split
  all_goals exact ⟨rfl, rfl, rfl⟩

/-- A post of another configuration to `/api/config` that is let in and accepted. -/
structure Replaces (env : Env Digest) (web : Web Digest) (request : Request) : Prop where
  posts : request.method = .post ∧ path request = "/api/config".toList
  enters : (dashboardAuthenticated env web request (expectedAuth env web)).1 = true
  changes : ∃ value merged validated, (content env request (1024 * 1024)).bind env.parse = some value ∧
    accepted env web value = some (some (merged, validated)) ∧ merged ≠ web.config

theorem Replaces.changed (replaces : Replaces env web request) (expected : expectedAuth env web ≠ [])
    (handled : handle env web request = some (after, status)) : ¬Same web after := by
  obtain ⟨⟨post, url⟩, enters, value, merged, validated, parsed, is, different⟩ := replaces
  have same := (@authenticated_same _ env web request _ (expectedAuth env web)).config
  unfold handle at handled
  simp only [if_neg expected, url, enters, route, post, if_true, postConfig, parsed,
    accepted_congr same, is] at handled
  rw [if_neg (by decide), if_neg (by decide), if_neg (by decide), if_neg (by decide)] at handled
  cases handled
  exact fun kept => different kept.config

theorem handle_guarded (expected : expectedAuth env web ≠ [])
    (handled : handle env web request = some (after, status)) (changed : ¬Same web after) :
    Credentialed env web request (expectedAuth env web) ∧
      (csrf request ∨ Replaces env web request) := by
  have keeps {result : Web Digest × Nat} (is : some result = some (after, status))
      (same : Same web result.1) : Same web after := by
    cases is
    exact same
  unfold handle at handled
  dsimp only at handled
  rw [if_neg expected] at handled
  split at handled
  · exact absurd (keeps handled (login_same _)) changed
  split at handled
  · exact absurd (keeps handled logout_same) changed
  split at handled
  · exact absurd (keeps handled (authenticated_same _)) changed
  split at handled
  · rename_i asset
    -- the files of the login page are outside the two routes that change anything
    rcases route_same handled with same | ⟨_, config | ⟨action, _⟩⟩
    · exact absurd same changed
    · exact absurd (config ▸ asset) (by decide)
    · exact absurd (action ▸ asset) (by decide)
  split at handled
  · rename_i passed
    have before := @authenticated_same _ env web request _ (expectedAuth env web)
    refine ⟨credentialed expected passed, ?_⟩
    rcases route_same handled with same | ⟨post, config | ⟨_, guarded⟩⟩
    · exact absurd (before.trans same) changed
    · simp only [config, route, post, if_true] at handled
      rcases postConfig_cases handled with same | ⟨value, merged, validated, parsed, is, different⟩
      · exact absurd (before.trans same) changed
      · rw [accepted_congr before.config] at is
        rw [before.config] at different
        exact .inr ⟨⟨post, config⟩, passed, value, merged, validated, parsed, is, different⟩
    · exact .inl guarded
  · exact absurd (keeps handled (authenticated_same _)) changed

end Guards

/-- Where a credential is expected, a request that changes the configuration or the
restart list or calls the provider carried a credential; and the header against
cross-site requests with it, just if it has the header or is not an accepted post
of another configuration to `/api/config`. -/
theorem changes_guarded {Digest : Type} [DecidableEq Digest] {env : Env Digest}
    {web after : Web Digest} {request : Request} {status : Nat}
    (expected : expectedAuth env web ≠ [])
    (handled : handle env web request = some (after, status)) :
    (¬Same web after → Credentialed env web request (expectedAuth env web)) ∧
      ((¬Same web after → Credentialed env web request (expectedAuth env web) ∧ csrf request) ↔
        csrf request ∨ ¬Replaces env web request) := by
  have guarded := handle_guarded expected handled
  refine ⟨fun changed => (guarded changed).1, fun all => ?_, fun exempt changed => ?_⟩
  · by_cases replaces : Replaces env web request
    · exact .inl (all (replaces.changed expected handled)).2
    · exact .inr replaces
  · obtain ⟨credential, header | replaces⟩ := guarded changed
    · exact ⟨credential, header⟩
    · exact ⟨credential, exempt.resolve_right (not_not_intro replaces)⟩

section Sample

def sampleEnv : Env Text where
  auth := ['a']
  now := 0
  token := none
  digest := id
  utf8 bytes := some (bytes.map fun byte => Char.ofNat byte.toNat)
  base64 _ := some [97]
  trim := id
  parse _ := some (.object (.cons ['m'] .null .nil))
  parseLogin _ := none
  parseControl _ := some ⟨⟨['k'], [], [], 0⟩, none⟩
  asset _ := false
  validate _ := some ⟨[], []⟩
  written := true
  accepts _ := true

def sampleWeb : Web Text := ⟨.object .nil, [], fun _ => none, [], []⟩

def samplePost (url : Text) (headers : List (Text × Text)) : Request :=
  ⟨.post, url, ("Authorization".toList, "Basic x".toList) :: headers, some 0, []⟩

end Sample

theorem changes_guarded_control : ∃ after,
    handle sampleEnv sampleWeb (samplePost "/api/control".toList
      [("X-Requested-With".toList, "tlsvpn".toList)]) = some (after, 200) ∧ ¬Same sampleWeb after ∧
    Credentialed sampleEnv sampleWeb (samplePost "/api/control".toList
      [("X-Requested-With".toList, "tlsvpn".toList)]) ['a'] := by
  have handled : handle sampleEnv sampleWeb (samplePost "/api/control".toList
      [("X-Requested-With".toList, "tlsvpn".toList)]) =
      some ({ sampleWeb with controls := [⟨['k'], [], [], 0⟩] }, 200) := by rfl
  have changed : ¬Same sampleWeb { sampleWeb with controls := [⟨['k'], [], [], 0⟩] } := by
    rintro ⟨_, _, same⟩
    cases same
  exact ⟨_, handled, changed, (changes_guarded (by decide) handled).1 changed⟩

/-- A post to `/api/config` without the header replaces the configuration. -/
theorem config_unguarded : csrf (samplePost "/api/config".toList []) = false ∧
    ∃ after, handle sampleEnv sampleWeb (samplePost "/api/config".toList []) = some (after, 200) ∧
      after.config ≠ sampleWeb.config := by
  refine ⟨by decide, { sampleWeb with config := .object (.cons ['m'] .null .nil) }, ?_, by decide⟩
  rfl

end TlsVpn.Dashboard
