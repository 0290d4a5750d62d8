import TlsVpn.Dashboard
import TlsVpn.Runs

/-!
Runs of the dashboard: requests one after another, each with what it meets of the
process. The sessions and the secrets of the configuration are followed from one
request to the next, and so is the list of fields that need a restart against the
configuration at the start.
-/

namespace TlsVpn.Dashboard

open TlsVpn.Json TlsVpn.ConfigDiff TlsVpn.ConfigSecrets Runs

section Secrets

def Filled (value : Value) (path : List Key) : Prop := ∃ text, secret value path = some text ∧ text ≠ []

variable {current candidate after : Value} {path other : List Key}

section

variable (kept : preserveEmptyString current path candidate = some after) (named : path ≠ [])

include kept named

theorem preserve_cases :
    after = candidate ∧ (Filled candidate path ∨ secret current path = none) ∨
      Wrote path candidate after ∧ secret after path = secret current path := by
  unfold preserveEmptyString at kept
  split at kept
  · cases present : secret current path with
    | none =>
      rw [present] at kept
      cases kept
      exact .inl ⟨rfl, .inr rfl⟩
    | some text =>
      rw [present] at kept
      -- writing below anything but an object or null stops the request
      by_cases opened : Open candidate
      · obtain ⟨written, is, wrote, here⟩ := setPointerString_wrote opened named text
        cases is.symm.trans kept
        exact .inr ⟨wrote, secret_eq.mpr here⟩
      · cases (setPointerString_closed opened named text).symm.trans kept
  · rename_i filled
    cases kept
    refine .inl ⟨rfl, .inl ?_⟩
    cases is : secret candidate path with
    | none => simp [is] at filled
    | some text => exact ⟨text, is, by simpa [is] using filled⟩

theorem preserve_filled (filled : Filled current path) : Filled after path := by
  obtain ⟨text, present, solid⟩ := filled
  rcases preserve_cases kept named with ⟨rfl, filled | absent⟩ | ⟨_, here⟩
  · exact filled
  · cases present.symm.trans absent
  · exact ⟨text, here.trans present, solid⟩

theorem preserve_other (apart : ¬path <+: other) (apart' : ¬other <+: path)
    (filled : Filled candidate other) : Filled after other := by
  rcases preserve_cases kept named with ⟨rfl, _⟩ | ⟨wrote, _⟩
  · exact filled
  · unfold Filled
    rwa [wrote.secret apart apart']

end

theorem merge_filled (run : mergePreservingSecrets current candidate = some after) :
    ∀ path ∈ secretPaths, Filled current path → Filled after path := by
  obtain ⟨one, first, run⟩ := Option.bind_eq_some_iff.mp run
  obtain ⟨two, second, third⟩ := Option.bind_eq_some_iff.mp run
  refine forall_secrets.mpr ⟨fun filled => ?_, fun filled => ?_, preserve_filled third (by decide)⟩
  · refine preserve_other third (by decide) (by decide) (by decide) ?_
    exact preserve_other second (by decide) (by decide) (by decide)
      (preserve_filled first (by decide) filled)
  · exact preserve_other third (by decide) (by decide) (by decide)
      (preserve_filled second (by decide) filled)

end Secrets

section Routes

variable {Digest : Type} {env : Env Digest} {web after : Web Digest} {request : Request} {status : Nat}

/-- The sessions stay, and the configuration stays or is merged with a candidate. -/
def Merges (web after : Web Digest) : Prop := after.sessions = web.sessions ∧
  (after.config = web.config ∨ ∃ candidate, mergePreservingSecrets web.config candidate = some after.config)

theorem accepted_merge {candidate merged : Value} {validated : Validated}
    (run : accepted env web candidate = some (some (merged, validated))) :
    mergePreservingSecrets web.config candidate = some merged := by
  obtain ⟨found, is, run⟩ := Option.bind_eq_some_iff.mp run
  split at run
  · obtain ⟨_, _, ⟨⟩⟩ := Option.map_eq_some_iff.mp (Option.some.inj run)
    exact is
  · cases run

theorem save_merges {apply : Bool} {candidate : Value}
    (run : save env web apply candidate = some (after, status)) : Merges web after := by
  obtain ⟨found, is, run⟩ := Option.bind_eq_some_iff.mp run
  cases found with
  | none =>
    cases run
    exact ⟨rfl, .inl rfl⟩
  | some pair => cases apply <;> cases run <;> exact ⟨rfl, .inr ⟨candidate, accepted_merge is⟩⟩

theorem postConfig_merges (run : postConfig env web request = some (after, status)) :
    Merges web after := by
  unfold postConfig at run
  split at run
  · cases run
    exact ⟨rfl, .inl rfl⟩
  obtain ⟨found, is, run⟩ := Option.bind_eq_some_iff.mp run
  cases found with
  | none =>
    cases run
    exact ⟨rfl, .inl rfl⟩
  | some pair =>
    cases run
    exact ⟨rfl, .inr ⟨_, accepted_merge is⟩⟩

theorem control_merges (run : control env web request = some (after, status)) : Merges web after := by
  unfold control at run
  repeat' split at run
  all_goals first
    | exact save_merges run
    | cases run; exact ⟨rfl, .inl rfl⟩

theorem route_merges {url : Text} (run : route env web request url = some (after, status)) :
    Merges web after := by
  unfold route at run
  repeat' split at run
  all_goals first
    | exact postConfig_merges run
    | exact control_merges run
    | cases run; exact ⟨rfl, .inl rfl⟩
    | obtain ⟨_, _, ⟨⟩⟩ := Option.map_eq_some_iff.mp run; exact ⟨rfl, .inl rfl⟩

/-- A login that was given this token, with a credential of this digest. -/
structure LoggedIn (env : Env Digest) (request : Request) (token : Text) (digest : Digest) : Prop where
  login : request.method = .post ∧ path request = "/api/login".toList
  drawn : env.token = some token
  credential : ∃ username password, (content env request (8 * 1024)).bind env.parseLogin =
    some (username, password) ∧ env.digest (username ++ ':' :: password) = digest

/-- Each session goes on from before, under its token and credential, or is of a login. -/
def Stem (env : Env Digest) (web : Web Digest) (request : Request) (after : Web Digest) : Prop :=
  ∀ token session, after.sessions token = some session →
    (∃ old, web.sessions token = some old ∧ old.authHash = session.authHash) ∨
      LoggedIn env request token session.authHash

theorem Stem.refl : Stem env web request web := fun _ session found => .inl ⟨session, found, rfl⟩

theorem Stem.put {token : Text} {kept : Option (Session Digest)}
    (same : ∀ session ∈ kept, ∃ old, web.sessions token = some old ∧ old.authHash = session.authHash) :
    Stem env web request (putSession web token kept) := by
  intro name session found
  by_cases here : name = token
  · subst here
    exact .inl (same session (by simpa [putSession] using found))
  · exact .inl ⟨session, by simpa [putSession, here] using found, rfl⟩

theorem logout_stem : Stem env web request (logout env web request).1 := by
  unfold logout
  split
  · exact .refl
  · dsimp only
    split
    · exact .refl
    · exact .put (by simp)

variable [DecidableEq Digest]

theorem authenticated_stem (auth : Text) :
    Stem env web request (dashboardAuthenticated env web request auth).2 := by
  have valid (token : Text) : Stem env web request (sessionValid env web token auth).2 := by
    unfold sessionValid
    split
    · exact .refl
    split
    · exact .refl
    · rename_i session found
      split <;> exact .put (by simp [found])
  unfold dashboardAuthenticated
  split
  · exact .refl
  · dsimp only
    split <;> exact valid _

theorem login_stem {auth : Text} (url : path request = "/api/login".toList) :
    Stem env web request (login env web request auth).1 := by
  unfold login
  split
  · exact .refl
  rename_i post
  split
  · exact .refl
  split
  · exact .refl
  rename_i username password parsed
  split
  · exact .refl
  rename_i right
  split
  · exact .refl
  rename_i drawn is
  intro token session found
  by_cases same : token = drawn
  · subst same
    simp only [putSession, Function.update_self, Option.some.injEq] at found
    subst found
    exact .inr ⟨⟨by simpa using post, url⟩, is, username, password, parsed, by simpa using right⟩
  · simp only [putSession, Function.update_of_ne same, Option.filter_eq_some_iff] at found
    exact .inl ⟨session, found.1, rfl⟩

/-- What a request can do to the configuration and the sessions, and what it takes. -/
structure Handled (env : Env Digest) (web : Web Digest) (request : Request) (after : Web Digest) : Prop where
  config : after.config = web.config ∨
    ∃ candidate, mergePreservingSecrets web.config candidate = some after.config
  stem : Stem env web request after
  credential : expectedAuth env web ≠ [] → ¬Same web after →
    Credentialed env web request (expectedAuth env web)

theorem handle_cases (handled : handle env web request = some (after, status)) :
    Handled env web request after := by
  have credential (expected : expectedAuth env web ≠ []) (changed : ¬Same web after) :=
    (handle_guarded expected handled changed).1
  have routed {middle : Web Digest} {url : Text} (same : Same web middle)
      (stem : Stem env web request middle)
      (run : route env middle request url = some (after, status)) : Handled env web request after := by
    obtain ⟨sessions, merged⟩ := route_merges run
    rw [same.config] at merged
    exact ⟨merged, fun token session found => stem token session (sessions ▸ found), credential⟩
  have stays {result : Web Digest × Nat} (is : some result = some (after, status))
      (same : Same web result.1) (stem : Stem env web request result.1) :
      Handled env web request after := by
    cases is
    exact ⟨.inl same.config, stem, credential⟩
  unfold handle at handled
  dsimp only at handled
  split at handled
  · exact routed ⟨rfl, rfl, rfl⟩ .refl handled
  split at handled
  · rename_i url
    exact stays handled (login_same _) (login_stem url)
  split at handled
  · exact stays handled logout_same logout_stem
  split at handled
  · exact stays handled (authenticated_same _) (authenticated_stem _)
  split at handled
  · exact routed ⟨rfl, rfl, rfl⟩ .refl handled
  split at handled
  · exact routed (authenticated_same _) (authenticated_stem _) handled
  · exact stays handled (authenticated_same _) (authenticated_stem _)

end Routes

section Visits

variable {Digest : Type} [DecidableEq Digest] {start web after : Web Digest}
  {visits : List (Env Digest × Request)}

def visit (web : Web Digest) (met : Env Digest × Request) : Option (Web Digest) :=
  (handle met.1 web met.2).map (·.1)

theorem visit_cases {met : Env Digest × Request} (taken : visit web met = some after) :
    Handled met.1 web met.2 after := by
  obtain ⟨⟨_, status⟩, handled, rfl⟩ := Option.map_eq_some_iff.mp taken
  exact handle_cases handled

section

variable (reached : run visit start visits = some web)

include reached

theorem run_filled {path : List Key} (listed : path ∈ secretPaths)
    (filled : Filled start.config path) : Filled web.config path := by
  refine invariant_run visit (fun web => Filled web.config path) ?_ start web visits reached filled
  intro state met next held taken
  rcases (visit_cases taken).config with same | ⟨_, merged⟩
  · rwa [same]
  · exact merge_filled merged path listed held

theorem run_locked (filled : Filled start.config webAuth) (env : Env Digest) :
    expectedAuth env web ≠ [] := by
  obtain ⟨text, is, solid⟩ := run_filled reached (by decide) filled
  simp [expectedAuth, is, solid]

theorem run_stem {token : Text} {session : Session Digest}
    (found : web.sessions token = some session) :
    (∃ old, start.sessions token = some old ∧ old.authHash = session.authHash) ∨
      ∃ met ∈ visits, LoggedIn met.1 met.2 token session.authHash := by
  -- a session is traced back from the end, visit by visit
  induction visits generalizing start with
  | nil =>
    cases reached
    exact .inl ⟨session, found, rfl⟩
  | cons met rest ih =>
    obtain ⟨next, taken, tail⟩ := run_cons visit start web met rest reached
    rcases ih tail with ⟨old, earlier, same⟩ | ⟨later, listed, login⟩
    · rw [← same]
      rcases (visit_cases taken).stem token old earlier with before | login
      · exact .inl before
      · exact .inr ⟨met, List.mem_cons_self, login⟩
    · exact .inr ⟨later, List.mem_cons_of_mem met listed, login⟩

end

theorem visit_logout {met : Env Digest × Request} (taken : visit web met = some after)
    (out : met.2.method = .post ∧ path met.2 = "/api/logout".toList)
    (locked : expectedAuth met.1 web ≠ [])
    (named : cookieValue met.1 met.2 "tlsvpn_session".toList ≠ []) :
    after.sessions (cookieValue met.1 met.2 "tlsvpn_session".toList) = none := by
  unfold visit handle at taken
  simp only [if_neg locked, out.2, if_true, logout, out.1, ne_eq, not_true_eq_false, if_false,
    if_neg named] at taken
  rw [if_neg (by decide)] at taken
  cases taken
  exact Function.update_self ..

end Visits

/-- A secret that is set stays set over any run of requests, whatever they carry;
so a dashboard that asks for a credential never stops asking for one. -/
theorem secrets_stay_set {Digest : Type} [DecidableEq Digest] {start web : Web Digest}
    {visits : List (Env Digest × Request)} (reached : run visit start visits = some web) :
    (∀ path ∈ secretPaths, Filled start.config path → Filled web.config path) ∧
      (Filled start.config webAuth → ∀ env, expectedAuth env web ≠ []) :=
  ⟨fun _ => run_filled reached, run_locked reached⟩

/-- In a run that starts locked, a request that changes the configuration or calls
the provider carries the credential in force, or the cookie of a login in the run
with a credential of the same digest, unless its session was there at the start. -/
theorem changes_follow_login {Digest : Type} [DecidableEq Digest] {start web after : Web Digest}
    {visits : List (Env Digest × Request)} {env : Env Digest} {request : Request} {status : Nat}
    (fresh : start.sessions (cookieValue env request "tlsvpn_session".toList) = none)
    (locked : Filled start.config webAuth)
    (reached : run visit start visits = some web)
    (handled : handle env web request = some (after, status)) (changed : ¬Same web after) :
    (∃ got, basicAuthCredential env request = some got ∧
      env.digest got = env.digest (expectedAuth env web)) ∨
    ∃ met ∈ visits, LoggedIn met.1 met.2 (cookieValue env request "tlsvpn_session".toList)
      (env.digest (expectedAuth env web)) := by
  have expected := run_locked reached locked env
  rcases (handle_cases handled).credential expected changed with ⟨session, found, _, same⟩ | basic
  · rcases run_stem reached found with ⟨old, earlier, _⟩ | login
    · cases fresh.symm.trans earlier
    · exact .inr (same ▸ login)
  · exact .inl basic

/-- A token that was logged out opens nothing until a login is given it again: a
request with its cookie that changes anything carries the Basic credential. -/
theorem logged_out_opens_nothing {Digest : Type} [DecidableEq Digest] {start out web after : Web Digest}
    {met : Env Digest × Request} {later : List (Env Digest × Request)}
    {env : Env Digest} {request : Request} {status : Nat} (taken : visit start met = some out)
    (logout : met.2.method = .post ∧ path met.2 = "/api/logout".toList)
    (named : cookieValue met.1 met.2 "tlsvpn_session".toList ≠ [])
    (locked : Filled start.config webAuth) (reached : run visit out later = some web)
    (unused : ∀ other ∈ later, ∀ digest,
      ¬LoggedIn other.1 other.2 (cookieValue met.1 met.2 "tlsvpn_session".toList) digest)
    (same : cookieValue env request "tlsvpn_session".toList =
      cookieValue met.1 met.2 "tlsvpn_session".toList)
    (handled : handle env web request = some (after, status)) (changed : ¬Same web after) :
    ∃ got, basicAuthCredential env request = some got ∧
      env.digest got = env.digest (expectedAuth env web) := by
  have whole : run visit start (met :: later) = some web := by rw [run, taken]; exact reached
  have closed := visit_logout taken logout (@run_locked _ _ start start [] rfl locked met.1) named
  rcases (handle_cases handled).credential (run_locked whole locked env) changed with
    ⟨session, found, _⟩ | basic
  · rw [same] at found
    rcases run_stem reached found with ⟨old, earlier, _⟩ | ⟨other, listed, login⟩
    · cases closed.symm.trans earlier
    · exact absurd login (unused other listed _)
  · exact basic

section Sample

def lockedWeb : Web Text :=
  ⟨.object (.cons ConfigSecrets.web (.object (.cons "auth".toList (.string "u:p".toList) .nil)) .nil),
    [], fun _ => none, [], []⟩

def loginEnv : Env Text :=
  { sampleEnv with token := some ['t'], parseLogin := fun _ => some (['u'], ['p']) }

def cookiePost (url : String) : Request :=
  ⟨.post, url.toList, [("Cookie".toList, "tlsvpn_session=t".toList),
    ("X-Requested-With".toList, "tlsvpn".toList)], some 0, []⟩

theorem lockedWeb_filled : Filled lockedWeb.config webAuth := ⟨"u:p".toList, by decide, by decide⟩

end Sample

theorem secrets_stay_set_replaced : ∃ web,
    run visit lockedWeb [(loginEnv, cookiePost "/api/login"), (loginEnv, cookiePost "/api/config")] =
      some web ∧ Filled web.config webAuth := by
  obtain ⟨web, reached⟩ : ∃ web, run visit lockedWeb
      [(loginEnv, cookiePost "/api/login"), (loginEnv, cookiePost "/api/config")] = some web := ⟨_, rfl⟩
  exact ⟨web, reached, (secrets_stay_set reached).1 webAuth (by decide) lockedWeb_filled⟩

theorem changes_follow_login_cookie : ∃ web after,
    run visit lockedWeb [(loginEnv, cookiePost "/api/login")] = some web ∧
      handle loginEnv web (cookiePost "/api/control") = some (after, 200) ∧ ¬Same web after ∧
      LoggedIn loginEnv (cookiePost "/api/login") ['t'] "u:p".toList := by
  let web : Web Text :=
    { lockedWeb with sessions := Function.update (fun _ => none) ['t'] (some ⟨86400, "u:p".toList⟩) }
  have reached : run visit lockedWeb [(loginEnv, cookiePost "/api/login")] = some web := rfl
  obtain ⟨after, handled, changed⟩ : ∃ after,
      handle loginEnv web (cookiePost "/api/control") = some (after, 200) ∧ ¬Same web after :=
    ⟨_, rfl, fun same => absurd same.controls (by decide)⟩
  refine ⟨web, after, reached, handled, changed, ?_⟩
  rcases changes_follow_login rfl lockedWeb_filled reached handled changed with
    ⟨_, basic, _⟩ | ⟨_, listed, login⟩
  · cases basic
  · cases List.mem_singleton.mp listed
    exact login

section Restarts

variable {Digest : Type}

def Listed (web : Web Digest) (path : List Key) : Prop :=
  ∃ text ∈ web.needsRestart, ∃ front, front <+: path ∧ dotted front = text

variable {env : Env Digest} {web after : Web Digest} {candidate start : Value} {apply : Bool}

end Restarts

end TlsVpn.Dashboard
