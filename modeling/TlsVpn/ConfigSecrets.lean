import TlsVpn.Json

/-!
The secrets of a configuration that the dashboard edits. They are blanked before
the configuration is shown, and a candidate that leaves one blank gets the
current one back. An assignment below what is neither an object nor null stops
the request: `none`.
-/

namespace TlsVpn.ConfigSecrets

open TlsVpn.Json

section Source

/-- The object at a member, or an empty one in the place of anything else. -/
def objectAt (value : Value) (part : Key) : Value :=
  ((value.get? part).filter Value.isObject).getD (.object .nil)

def setPointerString : Value → List Key → List Char → Option Value
  | value, [], _ => some value
  | value, [last], text => value.set last (.string text)
  | value, part :: rest, text => do
    let changed ← setPointerString (objectAt value part) rest text
    value.set part changed

def secret (value : Value) (path : List Key) : Option (List Char) :=
  (value.getPath path).bind Value.asStr

def preserveEmptyString (current : Value) (path : List Key) (candidate : Value) : Option Value :=
  if (secret candidate path).getD [] = [] then
    match secret current path with
    | some existing => setPointerString candidate path existing
    | none => some candidate
  else some candidate

def psk : List Key := [['p', 's', 'k']]
def socks5 : List Key := [['s', 'o', 'c', 'k', 's', '5']]
def web : Key := ['w', 'e', 'b']
def webAuth : List Key := [web, ['a', 'u', 't', 'h']]

def mergePreservingSecrets (current candidate : Value) : Option Value := do
  let candidate ← preserveEmptyString current psk candidate
  let candidate ← preserveEmptyString current socks5 candidate
  preserveEmptyString current webAuth candidate

def redactedConfig (current : Value) : Option Value := do
  let cfg ← setPointerString current psk []
  let cfg ← setPointerString cfg socks5 []
  setPointerString cfg webAuth []

end Source

section Writes

def Open (value : Value) : Prop := value = .null ∨ value.isObject

theorem set_closed {value : Value} (closed : ¬Open value) (key : Key) (inner : Value) :
    value.set key inner = none := by
  cases value <;> first | rfl | simp [Open, Value.isObject] at closed

theorem set_open {value : Value} (opened : Open value) (key : Key) (inner : Value) :
    ∃ members : Members, value.set key inner = some (.object members) ∧
      ∀ wanted, members.get? wanted = if key = wanted then some inner else value.get? wanted := by
  rcases opened with rfl | object
  · exact ⟨_, rfl, fun wanted => rfl⟩
  · cases value with
    | object members => exact ⟨_, rfl, Members.get?_insert members key inner⟩
    | _ => cases object

theorem objectAt_isObject (value : Value) (part : Key) : (objectAt value part).isObject := by
  unfold objectAt
  cases value.get? part with
  | none => rfl
  | some child => cases child <;> rfl

theorem objectAt_getPath (value : Value) (part key : Key) (rest : List Key) :
    (objectAt value part).getPath (key :: rest) =
      (value.get? part).bind (·.getPath (key :: rest)) := by
  unfold objectAt
  cases value.get? part with
  | none => rfl
  | some child => cases child <;> rfl

theorem setPointerString_closed {value : Value} {path : List Key} (closed : ¬Open value)
    (named : path ≠ []) (text : List Char) : setPointerString value path text = none := by
  unfold setPointerString
  split
  · exact absurd rfl named
  · exact set_closed closed _ _
  · simp [set_closed closed]

/-- A text is written at a path, and the leaves on other branches stay. -/
structure Wrote (path : List Key) (before after : Value) : Prop where
  object : after.isObject
  frame : ∀ {other leaf}, ¬path <+: other → ¬other <+: path → leaf.isObject = false →
    (after.getPath other = some leaf ↔ before.getPath other = some leaf)

theorem setPointerString_wrote {value : Value} {path : List Key} (opened : Open value)
    (named : path ≠ []) (text : List Char) : ∃ after, setPointerString value path text = some after ∧
      Wrote path value after ∧ after.getPath path = some (.string text) := by
  induction path generalizing value with
  | nil => exact absurd rfl named
  | cons part rest ih =>
    -- below the first part only the branch that is written to can change
    have step {inner : Value} (members : Members)
        (found : ∀ wanted, members.get? wanted = if part = wanted then some inner
          else value.get? wanted)
        (below : ∀ {other leaf}, ¬rest <+: other → ¬other <+: rest → leaf.isObject = false →
          (inner.getPath other = some leaf ↔ (value.get? part).bind (·.getPath other) = some leaf)) :
        Wrote (part :: rest) value (.object members) := by
      refine ⟨rfl, fun {other leaf} apart apart' isLeaf => ?_⟩
      cases other with
      | nil => simp at apart'
      | cons key other =>
        by_cases same : part = key
        · subst same
          simp only [List.cons_prefix_cons, true_and] at apart apart'
          simpa [Value.getPath, Value.get?, found] using below apart apart' isLeaf
        · simp [Value.getPath, Value.get?, found, same]
    cases rest with
    | nil =>
      obtain ⟨members, written, found⟩ := set_open opened part (.string text)
      exact ⟨_, written, step members found (by simp),
        by simp [Value.getPath, Value.get?, found]⟩
    | cons next rest =>
      obtain ⟨changed, written, ⟨_, frame⟩, here⟩ := ih (.inr (objectAt_isObject value part)) (by simp)
      obtain ⟨members, outer, found⟩ := set_open opened part changed
      refine ⟨.object members, ?_, step members found fun {other leaf} apart apart' isLeaf => ?_,
        by simpa [Value.getPath, Value.get?, found] using here⟩
      · simp only [setPointerString]
        exact Option.bind_eq_some_iff.mpr ⟨changed, written, outer⟩
      · rw [frame apart apart' isLeaf]
        cases other with
        | nil => simp at apart'
        | cons key other => rw [objectAt_getPath]

theorem secret_eq {value : Value} {path : List Key} {text : List Char} :
    secret value path = some text ↔ value.getPath path = some (.string text) := by
  unfold secret
  cases value.getPath path with
  | none => simp
  | some leaf => cases leaf <;> simp [Value.asStr]

variable {current candidate value after : Value} {path other : List Key}

theorem Wrote.secret (wrote : Wrote path value after) (apart : ¬path <+: other)
    (apart' : ¬other <+: path) : secret after other = secret value other :=
  Option.ext fun text => by rw [secret_eq, secret_eq, wrote.frame apart apart' rfl]

/-- What a secret is after a merge: the current one in the place of a blank. -/
def merged (candidate current : Option (List Char)) : Option (List Char) :=
  if candidate.getD [] = [] then current.or candidate else candidate

theorem preserve_wrote (object : candidate.isObject) (named : path ≠ []) :
    ∃ after, preserveEmptyString current path candidate = some after ∧
      Wrote path candidate after ∧
      secret after path = merged (secret candidate path) (secret current path) := by
  have stays : Wrote path candidate candidate := ⟨object, fun _ _ _ => Iff.rfl⟩
  unfold preserveEmptyString merged
  split
  · cases existing : secret current path with
    | none => exact ⟨candidate, rfl, stays, rfl⟩
    | some text =>
      obtain ⟨after, written, wrote, here⟩ := setPointerString_wrote (.inr object) named text
      exact ⟨after, written, wrote, secret_eq.mpr here⟩
  · exact ⟨candidate, rfl, stays, rfl⟩

theorem preserve_none (absent : secret current path = none) :
    preserveEmptyString current path candidate = some candidate := by
  unfold preserveEmptyString
  rw [absent]
  split <;> rfl

theorem preserve_open (opened : Open candidate) (named : path ≠ []) :
    ∃ after, preserveEmptyString current path candidate = some after ∧ Open after := by
  unfold preserveEmptyString
  split
  · cases secret current path with
    | none => exact ⟨candidate, rfl, opened⟩
    | some text =>
      obtain ⟨after, written, wrote, _⟩ := setPointerString_wrote opened named text
      exact ⟨after, written, .inr wrote.object⟩
  · exact ⟨candidate, rfl, opened⟩

theorem preserve_closed (closed : ¬Open candidate) (named : path ≠ []) :
    preserveEmptyString current path candidate =
      if secret current path = none then some candidate else none := by
  have blank : secret candidate path = none := by
    cases path with
    | nil => exact absurd rfl named
    | cons key rest => cases candidate <;> first | rfl | simp [Open, Value.isObject] at closed
  unfold preserveEmptyString
  rw [blank, if_pos (show (none : Option (List Char)).getD [] = [] from rfl)]
  cases secret current path with
  | none => rfl
  | some text => exact setPointerString_closed closed named text

end Writes

section Merging

def secretPaths : List (List Key) := [psk, socks5, webAuth]

theorem forall_secrets {good : List Key → Prop} :
    (∀ path ∈ secretPaths, good path) ↔ good psk ∧ good socks5 ∧ good webAuth := by
  simp [secretPaths]

variable {current candidate : Value}

theorem merge_some_iff : (mergePreservingSecrets current candidate).isSome ↔
    Open candidate ∨ ∀ path ∈ secretPaths, secret current path = none := by
  unfold mergePreservingSecrets
  by_cases opened : Open candidate
  · obtain ⟨one, first, opened₁⟩ := @preserve_open current candidate psk opened (by decide)
    obtain ⟨two, second, opened₂⟩ := @preserve_open current one socks5 opened₁ (by decide)
    obtain ⟨after, third, _⟩ := @preserve_open current two webAuth opened₂ (by decide)
    simp [opened, first, second, third]
  · have closed (path : List Key) (named : path ≠ []) :=
      @preserve_closed current candidate path opened named
    rw [forall_secrets, closed psk (by decide)]
    by_cases one : secret current psk = none
    · by_cases two : secret current socks5 = none
      · by_cases three : secret current webAuth = none <;>
          simp [opened, one, two, three, closed socks5 (by decide), closed webAuth (by decide)]
      · simp [opened, one, two, closed socks5 (by decide)]
    · simp [opened, one]

theorem single_apart {key : Key} {other : List Key} (apart : ¬[key] <+: other) (inside : other ≠ []) :
    ¬other <+: [key] := by
  intro front
  cases other with
  | nil => exact inside rfl
  | cons first rest =>
    obtain ⟨rfl, _⟩ := List.cons_prefix_cons.mp front
    exact apart (by simp)

theorem preserve_web {after leaf : Value} (kept : preserveEmptyString current webAuth candidate = some after)
    (here : secret after webAuth = merged (secret candidate webAuth) (secret current webAuth))
    (isLeaf : leaf.isObject = false) :
    after.getPath [web] = some leaf ↔
      candidate.getPath [web] = some leaf ∧ secret current webAuth = none := by
  have blank {value : Value} (found : value.getPath [web] = some leaf) :
      secret value webAuth = none := by
    obtain ⟨inner, first, rest⟩ := Option.bind_eq_some_iff.mp found
    cases Option.some.inj rest
    unfold secret webAuth Value.getPath
    rw [first]
    cases leaf <;> first | rfl | cases isLeaf
  by_cases absent : secret current webAuth = none
  · cases (preserve_none absent).symm.trans kept
    simp [absent]
  · refine ⟨fun found => absurd (here.symm.trans (blank found)) ?_, fun both => absurd both.2 absent⟩
    unfold merged
    obtain ⟨text, present⟩ := Option.ne_none_iff_exists'.mp absent
    rw [present]
    split <;> grind

/-- A merge with an object. Outside the three secrets only a value in the place of
the object around `web.auth` can be lost. -/
theorem merge_object (object : candidate.isObject) : ∃ after,
    mergePreservingSecrets current candidate = some after ∧
      (∀ path ∈ secretPaths, secret after path = merged (secret candidate path) (secret current path)) ∧
      ∀ other leaf, (∀ path ∈ secretPaths, ¬path <+: other) → leaf.isObject = false →
        (after.getPath other = some leaf ↔ candidate.getPath other = some leaf ∧
          (other = [web] → secret current webAuth = none)) := by
  obtain ⟨one, first, wrote₁, here₁⟩ := @preserve_wrote current candidate psk object (by decide)
  obtain ⟨two, second, wrote₂, here₂⟩ := @preserve_wrote current one socks5 wrote₁.object (by decide)
  obtain ⟨after, third, wrote₃, here₃⟩ := @preserve_wrote current two webAuth wrote₂.object (by decide)
  refine ⟨after, ?_, forall_secrets.mpr ⟨?_, ?_, ?_⟩, fun other leaf apart isLeaf => ?_⟩
  · simp only [mergePreservingSecrets, first, second, third, Option.bind_eq_bind, Option.bind_some]
  · rw [wrote₃.secret (by decide) (by decide), wrote₂.secret (by decide) (by decide), here₁]
  · rw [wrote₃.secret (by decide) (by decide), here₂, wrote₁.secret (by decide) (by decide)]
  · rw [here₃, wrote₂.secret (by decide) (by decide), wrote₁.secret (by decide) (by decide)]
  · obtain ⟨notPsk, notSocks, notAuth⟩ := forall_secrets.mp apart
    by_cases root : other = []
    · subst root
      have none {value : Value} (object : value.isObject) : value.getPath [] ≠ some leaf := by
        rintro ⟨⟩
        rw [object] at isLeaf
        cases isLeaf
      simp [none object, none wrote₃.object]
    · have both : two.getPath other = some leaf ↔ candidate.getPath other = some leaf := by
        rw [wrote₂.frame notSocks (single_apart notSocks root) isLeaf,
          wrote₁.frame notPsk (single_apart notPsk root) isLeaf]
      by_cases around : other = [web]
      · subst around
        rw [preserve_web third here₃ isLeaf, both]
        simp
      · rw [wrote₃.frame notAuth ?_ isLeaf, both]
        · simp [around]
        · intro front
          cases other with
          | nil => exact root rfl
          | cons key rest =>
            obtain ⟨rfl, below⟩ := List.cons_prefix_cons.mp front
            refine single_apart (fun auth => notAuth ?_) (fun none => around (by rw [none])) below
            exact List.cons_prefix_cons.mpr ⟨rfl, auth⟩

theorem redacted_blank (object : current.isObject) : ∃ redacted,
    redactedConfig current = some redacted ∧ redacted.isObject ∧
      ∀ path ∈ secretPaths, secret redacted path = some [] := by
  obtain ⟨one, first, wrote₁, here₁⟩ :=
    @setPointerString_wrote current psk (.inr object) (by decide) []
  obtain ⟨two, second, wrote₂, here₂⟩ :=
    @setPointerString_wrote one socks5 (.inr wrote₁.object) (by decide) []
  obtain ⟨redacted, third, wrote₃, here₃⟩ :=
    @setPointerString_wrote two webAuth (.inr wrote₂.object) (by decide) []
  refine ⟨redacted, ?_, wrote₃.object, forall_secrets.mpr ⟨?_, ?_, secret_eq.mpr here₃⟩⟩
  · simp only [redactedConfig, first, second, third, Option.bind_eq_bind, Option.bind_some]
  · rw [wrote₃.secret (by decide) (by decide), wrote₂.secret (by decide) (by decide)]
    exact secret_eq.mpr here₁
  · rw [wrote₃.secret (by decide) (by decide)]
    exact secret_eq.mpr here₂

end Merging

/-- Merging a candidate into a configuration. It goes through for an object, for
null and if there is no secret to write. For an object the secrets are merged, and
its other leaves stay exactly if `web` is no leaf in the way of a current
`web.auth`. What was blanked for display comes back. -/
theorem secrets_merged (current : Members) (candidate : Value) :
    ((mergePreservingSecrets (.object current) candidate).isSome ↔
      Open candidate ∨ ∀ path ∈ secretPaths, secret (.object current) path = none) ∧
    (∀ members, candidate = .object members → ∃ after,
      mergePreservingSecrets (.object current) candidate = some after ∧
      (∀ path ∈ secretPaths,
        secret after path = merged (secret candidate path) (secret (.object current) path)) ∧
      ((∀ other leaf, (∀ path ∈ secretPaths, ¬path <+: other) → leaf.isObject = false →
        (after.getPath other = some leaf ↔ candidate.getPath other = some leaf)) ↔
        (∀ inner, candidate.get? web = some inner → inner.isObject) ∨
          secret (.object current) webAuth = none)) ∧
    ∃ redacted after, redactedConfig (.object current) = some redacted ∧
      mergePreservingSecrets (.object current) redacted = some after ∧
      ∀ path ∈ secretPaths, ∀ text, secret (.object current) path = some text →
        secret after path = some text := by
  refine ⟨merge_some_iff, ?_, ?_⟩
  · rintro members rfl
    obtain ⟨after, run, secrets, leaves⟩ := @merge_object (.object current) (.object members) rfl
    refine ⟨after, run, secrets, ⟨fun stay => ?_, fun allowed other leaf apart isLeaf => ?_⟩⟩
    · by_contra! ⟨⟨inner, found, isLeaf⟩, present⟩
      have isLeaf : inner.isObject = false := by simpa using isLeaf
      have apart : ∀ path ∈ secretPaths, ¬path <+: [web] := by decide
      have here : Value.getPath (.object members) [web] = some inner := by
        simp [Value.getPath, found]
      exact present (((leaves [web] inner apart isLeaf).mp
        ((stay [web] inner apart isLeaf).mpr here)).2 rfl)
    · rw [leaves other leaf apart isLeaf, and_iff_left_iff_imp]
      rintro found rfl
      refine allowed.resolve_left fun objects => ?_
      obtain ⟨inner, first, rest⟩ := Option.bind_eq_some_iff.mp found
      cases rest
      rw [objects _ first] at isLeaf
      cases isLeaf
  · obtain ⟨redacted, blanked, object, blanks⟩ := @redacted_blank (.object current) rfl
    obtain ⟨after, run, secrets, _⟩ := @merge_object (.object current) redacted object
    refine ⟨redacted, after, blanked, run, fun path listed text present => ?_⟩
    rw [secrets path listed, blanks path listed, present]
    rfl

/-- A list in the place of a configuration stops the request, and a number in the
place of the object around `web.auth` is lost. -/
theorem odd_candidates :
    mergePreservingSecrets (.object (.cons ['p', 's', 'k'] (.string ['k']) .nil)) (.array .nil) = none ∧
      mergePreservingSecrets
        (.object (.cons web (.object (.cons ['a', 'u', 't', 'h'] (.string ['u']) .nil)) .nil))
        (.object (.cons web (.number (.integer 5)) .nil)) =
        some (.object (.cons web (.object (.cons ['a', 'u', 't', 'h'] (.string ['u']) .nil)) .nil)) := by
  decide +kernel

end TlsVpn.ConfigSecrets
