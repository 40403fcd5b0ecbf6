import Mathlib.Data.List.DropRight
import SkillHive.LocalStore.SyncState

/-!
# The server address

The address that a user types is trimmed and checked before it is recorded in the local scope
and stored in `server.json`, each time by the same function. Both records are compared as plain
text, so one pass has to leave nothing for a second one: it does unless white space stands
before the trailing slashes.
-/

namespace SkillHive

open Foundation

namespace Sync

inductive ServerConfigError where
  | invalidUrl (text : String)
  deriving DecidableEq

/-- `str::trim_end_matches('/')` -/
def trimEndSlashes (s : String) : String := String.ofList (s.toList.rdropWhile (· = '/'))

/-- What follows the first `://`. -/
def afterScheme? : List Char → Option (List Char)
  | [] => none
  | c :: cs => if "://".toList <+: c :: cs then some ((c :: cs).drop 3) else afterScheme? cs

/-- `normalize_server_url` -/
def normalizeServerUrl (raw : String) : Except ServerConfigError String := do
  let trimmed := trim raw
  let withoutTrailing := trimEndSlashes trimmed
  require ("http://".toList <+: withoutTrailing.toList ∨ "https://".toList <+: withoutTrailing.toList)
    (.invalidUrl trimmed)
  let rest := (afterScheme? withoutTrailing.toList).getD withoutTrailing.toList
  require (¬ (rest = [] ∨ '@' ∈ rest ∨ '?' ∈ rest ∨ '#' ∈ rest)) (.invalidUrl trimmed)
  .ok withoutTrailing

/-- The checks that an address passes. -/
structure ValidAddress (url : String) : Prop where
  scheme : "http://".toList <+: url.toList ∨ "https://".toList <+: url.toList
  rest : ¬ ((afterScheme? url.toList).getD url.toList = [] ∨
    '@' ∈ (afterScheme? url.toList).getD url.toList ∨
    '?' ∈ (afterScheme? url.toList).getD url.toList ∨
    '#' ∈ (afterScheme? url.toList).getD url.toList)

theorem normalizeServerUrl_eq_ok {raw url : String} :
    normalizeServerUrl raw = .ok url ↔ url = trimEndSlashes (trim raw) ∧ ValidAddress url := by
  constructor
  · intro h
    obtain ⟨_, hscheme, h⟩ := bind_eq_ok.mp h
    obtain ⟨_, hrest, h⟩ := bind_eq_ok.mp h
    have hurl : trimEndSlashes (trim raw) = url := Except.ok.inj h
    rw [← hurl]
    exact ⟨rfl, require_eq_ok.mp hscheme, require_eq_ok.mp hrest⟩
  · rintro ⟨rfl, hvalid⟩
    refine bind_eq_ok.mpr ⟨(), require_eq_ok.mpr hvalid.scheme, ?_⟩
    exact bind_eq_ok.mpr ⟨(), require_eq_ok.mpr hvalid.rest, rfl⟩

theorem ValidAddress.head? {url : String} (h : ValidAddress url) : url.toList.head? = some 'h' := by
  have hhttp : "http://".toList = ['h', 't', 't', 'p', ':', '/', '/'] := by decide
  have hhttps : "https://".toList = ['h', 't', 't', 'p', 's', ':', '/', '/'] := by decide
  rcases h.scheme with ⟨rest, hrest⟩ | ⟨rest, hrest⟩
  · rw [← hrest, hhttp]
    rfl
  · rw [← hrest, hhttps]
    rfl

theorem toList_trimEndSlashes (s : String) :
    (trimEndSlashes s).toList = s.toList.rdropWhile (· = '/') := String.toList_ofList

theorem exists_append_trimEndSlashes (s : String) :
    ∃ slashes, s.toList = (trimEndSlashes s).toList ++ slashes ∧ ∀ c ∈ slashes, c = '/' := by
  obtain ⟨slashes, hslashes, hall⟩ := exists_append_rdropWhile (· = '/') s.toList
  refine ⟨slashes, ?_, fun c hc ↦ of_decide_eq_true (hall c hc)⟩
  rw [toList_trimEndSlashes]
  exact hslashes

theorem trimEndSlashes_getLast {s : String} {c : Char}
    (h : c ∈ (trimEndSlashes s).toList.getLast?) : c ≠ '/' := by
  rw [toList_trimEndSlashes] at h
  obtain ⟨hne, rfl⟩ := List.mem_getLast?_eq_getLast h
  exact fun heq ↦ List.rdropWhile_last_not _ _ hne (decide_eq_true heq)

theorem trimEndSlashes_eq_self {s : String} (h : ∀ c ∈ s.toList.getLast?, c ≠ '/') :
    trimEndSlashes s = s := by
  apply String.toList_inj.mp
  rw [toList_trimEndSlashes]
  refine List.rdropWhile_eq_self_iff.mpr fun hne ↦ ?_
  have hlast := h _ (List.getLast?_eq_some_getLast hne)
  simpa using hlast

/-! ## White space before the trailing slashes -/

/-- Trimmed, the text ends in white space and at least one slash. -/
def SpacedSlashes (raw : String) : Prop :=
  ∃ front space slashes, (trim raw).toList = front ++ space :: '/' :: slashes ∧
    isWhiteSpace space = true ∧ ∀ c ∈ slashes, c = '/'

/-- The two texts have the same middle, between white space in front, and white space and
slashes behind. -/
def SameAddress (raw raw' : String) : Prop :=
  ∃ middle front front' back back', raw.toList = front ++ middle ++ back ∧
    raw'.toList = front' ++ middle ++ back' ∧
    (∀ c ∈ front ++ front', isWhiteSpace c) ∧ ∀ c ∈ back ++ back', isWhiteSpace c ∨ c = '/'

section Accepted

variable {raw raw' url url' : String}

/-- The accepted text ends in white space just where it stood before the slashes. -/
theorem spacedSlashes_iff (h : normalizeServerUrl raw = .ok url) :
    SpacedSlashes raw ↔ ∃ space ∈ url.toList.getLast?, isWhiteSpace space = true := by
  obtain ⟨hurl, hvalid⟩ := normalizeServerUrl_eq_ok.mp h
  obtain ⟨slashes, htrim, hslashes⟩ := exists_append_trimEndSlashes (trim raw)
  rw [← hurl] at htrim
  constructor
  · rintro ⟨front, space, slashes', htrim', hspace, hslashes'⟩
    refine ⟨space, ?_, hspace⟩
    have hall : ∀ c ∈ '/' :: slashes', decide (c = '/') = true := by
      rw [List.forall_mem_cons]
      exact ⟨rfl, fun c hc ↦ decide_eq_true (hslashes' c hc)⟩
    have hne : space ≠ '/' := by
      rintro rfl
      exact absurd hspace (by decide)
    have hlist : url.toList = front ++ [space] := by
      rw [hurl, toList_trimEndSlashes, htrim', List.append_cons,
        rdropWhile_append_of_all hall, List.rdropWhile_concat_neg _ _ _ (by simpa using hne)]
    rw [hlist, List.getLast?_concat]
    rfl
  · rintro ⟨space, hlast, hspace⟩
    obtain ⟨front, hfront⟩ : ∃ front, url.toList = front ++ [space] := by
      obtain ⟨hne, rfl⟩ := List.mem_getLast?_eq_getLast hlast
      exact ⟨_, (List.dropLast_append_getLast hne).symm⟩
    cases slashes with
    | nil =>
      -- White space at the very end would have been trimmed.
      rw [List.append_nil] at htrim
      rw [← htrim] at hlast
      rw [trim_getLast hlast] at hspace
      cases hspace
    | cons slash slashes =>
      obtain rfl := hslashes slash List.mem_cons_self
      refine ⟨front, space, slashes, ?_, hspace, fun c hc ↦ hslashes c (List.mem_cons_of_mem _ hc)⟩
      rw [htrim, hfront, List.append_assoc]
      rfl

/-- A second pass changes nothing just where the first has left no white space at the end. -/
theorem normalizeServerUrl_fixed_iff (h : normalizeServerUrl raw = .ok url) :
    normalizeServerUrl url = .ok url ↔ ¬ SpacedSlashes raw := by
  obtain ⟨hurl, hvalid⟩ := normalizeServerUrl_eq_ok.mp h
  rw [spacedSlashes_iff h]
  constructor
  · rintro hfixed ⟨space, hlast, hspace⟩
    obtain ⟨hsame, -⟩ := normalizeServerUrl_eq_ok.mp hfixed
    obtain ⟨front, back, htrim, -, -⟩ := exists_append_trim url
    obtain ⟨slashes, hslashes, -⟩ := exists_append_trimEndSlashes (trim url)
    have hlength := congrArg List.length htrim
    have hlength' := congrArg List.length hslashes
    rw [← hsame] at hlength'
    simp only [List.length_append] at hlength hlength'
    have hback : back = [] := List.eq_nil_of_length_eq_zero (by omega)
    have hfront : front = [] := List.eq_nil_of_length_eq_zero (by omega)
    rw [hback, hfront, List.append_nil, List.nil_append] at htrim
    rw [htrim] at hlast
    rw [trim_getLast hlast] at hspace
    cases hspace
  · intro hclean
    have htrim : trim url = url := by
      refine trim_eq_self ?_ fun c hc ↦ ?_
      · rw [hvalid.head?]
        rintro c ⟨⟩
        decide
      · exact Bool.eq_false_iff.mpr fun hspace ↦ hclean ⟨c, hc, hspace⟩
    refine normalizeServerUrl_eq_ok.mpr ⟨?_, hvalid⟩
    rw [htrim, trimEndSlashes_eq_self fun c hc ↦ trimEndSlashes_getLast (hurl ▸ hc)]

/-- White space or a slash. -/
def isTrailing (c : Char) : Bool := isWhiteSpace c || c = '/'

/-- What is accepted is the middle of the text. -/
theorem stripped_eq (h : normalizeServerUrl raw = .ok url) (hclean : ¬ SpacedSlashes raw) :
    stripped isWhiteSpace isTrailing raw.toList = url.toList := by
  have hends := (spacedSlashes_iff h).not.mp hclean
  obtain ⟨hurl, hvalid⟩ := normalizeServerUrl_eq_ok.mp h
  obtain ⟨front, back, htrim, hfront, hback⟩ := exists_append_trim raw
  obtain ⟨slashes, htrimmed, hslashes⟩ := exists_append_trimEndSlashes (trim raw)
  rw [← hurl] at htrimmed
  rw [htrim, htrimmed, List.append_assoc, List.append_assoc, ← List.append_assoc]
  have htrailing : ∀ c ∈ slashes ++ back, isTrailing c := by
    rw [List.forall_mem_append]
    refine ⟨fun c hc ↦ ?_, fun c hc ↦ ?_⟩
    · simp [isTrailing, hslashes c hc]
    · simp [isTrailing, hback c hc]
  rw [stripped_append (fun c hc ↦ by simp [isTrailing, hc]) hfront htrailing]
  refine stripped_eq_self ?_ fun c hc ↦ ?_
  · rw [hvalid.head?]
    rintro c ⟨⟩
    decide
  · have hslash : c ≠ '/' := trimEndSlashes_getLast (hurl ▸ hc)
    have hspace : isWhiteSpace c = false := Bool.eq_false_iff.mpr fun hspace ↦ hends ⟨c, hc, hspace⟩
    simp [isTrailing, hslash, hspace]

theorem SameAddress.stripped_eq (h : SameAddress raw raw') :
    stripped isWhiteSpace isTrailing raw.toList = stripped isWhiteSpace isTrailing raw'.toList := by
  obtain ⟨middle, front, front', back, back', hraw, hraw', hfront, hback⟩ := h
  rw [List.forall_mem_append] at hfront hback
  have htrailing : ∀ cs : List Char, (∀ c ∈ cs, isWhiteSpace c = true ∨ c = '/') →
      ∀ c ∈ cs, isTrailing c := by
    intro cs hcs c hc
    simpa [isTrailing] using hcs c hc
  rw [hraw, hraw', stripped_append (fun c hc ↦ by simp [isTrailing, hc]) hfront.1
      (htrailing _ hback.1),
    stripped_append (fun c hc ↦ by simp [isTrailing, hc]) hfront.2 (htrailing _ hback.2)]

theorem SameAddress.url_eq (h : SameAddress raw raw') (hurl : normalizeServerUrl raw = .ok url)
    (hurl' : normalizeServerUrl raw' = .ok url') (hclean : ¬ SpacedSlashes raw)
    (hclean' : ¬ SpacedSlashes raw') : url = url' := by
  apply String.toList_inj.mp
  rw [← Sync.stripped_eq hurl hclean, ← Sync.stripped_eq hurl' hclean', h.stripped_eq]

end Accepted

/-! ## The records of the address -/

/-- What a device keeps of the address: the local scope and `base_url` of `server.json`. -/
structure AddressedClient where
  store : LocalStore
  config : Option String

inductive AddressError where
  | config (error : ServerConfigError)
  | store (error : LocalStore.LocalStoreError)

/-- `server_config::store` -/
def storeServerUrl (baseUrl : String) : Except ServerConfigError String := normalizeServerUrl baseUrl

/-- What the server answers to a login. -/
structure LoginSession where
  clientInstanceId : String
  deviceId : String
  userId : String

/-- The two commands that record an address. -/
inductive AddressCommand where
  | desktopLogin (baseUrl username clientInstanceId : String) (session : LoginSession)
  | setServerUrl (baseUrl : String)

namespace AddressCommand

def baseUrl : AddressCommand → String
  | desktopLogin baseUrl .. => baseUrl
  | setServerUrl baseUrl => baseUrl

/-- `desktop_login` with a session that the server grants, and `set_server_url`. The login
draws the identifier `clientInstanceId` where none is stored. -/
def run (client : AddressedClient) : AddressCommand → Except AddressError AddressedClient
  | desktopLogin baseUrl username clientInstanceId session => do
    let serverUrl ← (normalizeServerUrl baseUrl).mapError .config
    let store ← (client.store.prepareLoginScope serverUrl username).mapError .store
    let (store, _) := store.ensureClientInstanceId clientInstanceId
    let store ← (store.recordAuthenticatedDevice serverUrl username session.clientInstanceId
      session.deviceId session.userId).mapError .store
    let config ← (storeServerUrl serverUrl).mapError .config
    .ok ⟨store, some config⟩
  | setServerUrl baseUrl => do
    let normalized ← (normalizeServerUrl baseUrl).mapError .config
    let store ← (client.store.prepareServerSwitch normalized).mapError .store
    let config ← (storeServerUrl normalized).mapError .config
    .ok ⟨store, some config⟩

/-- The scope gets the address, and the file what a second pass makes of it. -/
theorem run_eq_ok {client after : AddressedClient} {command : AddressCommand}
    (h : run client command = .ok after) :
    ∃ url config, normalizeServerUrl command.baseUrl = .ok url ∧
      normalizeServerUrl url = .ok config ∧ after.store.syncState.serverUrl = some url ∧
      after.config = some config := by
  cases command with
  | desktopLogin baseUrl username clientInstanceId session =>
    obtain ⟨url, hurl, h⟩ := bind_eq_ok.mp h
    obtain ⟨prepared, hprepared, h⟩ := bind_eq_ok.mp h
    obtain ⟨store, hstore, h⟩ := bind_eq_ok.mp h
    obtain ⟨config, hconfig, h⟩ := bind_eq_ok.mp h
    have hafter : AddressedClient.mk store (some config) = after := Except.ok.inj h
    subst hafter
    refine ⟨url, config, mapError_eq_ok.mp hurl, mapError_eq_ok.mp hconfig, ?_, rfl⟩
    have hrecorded := mapError_eq_ok.mp hstore
    obtain ⟨_, -, hrecorded⟩ := bind_eq_ok.mp hrecorded
    obtain ⟨_, -, hrecorded⟩ := bind_eq_ok.mp hrecorded
    obtain ⟨_, -, hrecorded⟩ := bind_eq_ok.mp hrecorded
    obtain ⟨_, -, hrecorded⟩ := bind_eq_ok.mp hrecorded
    obtain ⟨_, -, hrecorded⟩ := bind_eq_ok.mp hrecorded
    obtain ⟨_, -, hrecorded⟩ := bind_eq_ok.mp hrecorded
    rw [← Except.ok.inj hrecorded]
  | setServerUrl baseUrl =>
    obtain ⟨url, hurl, h⟩ := bind_eq_ok.mp h
    obtain ⟨store, hstore, h⟩ := bind_eq_ok.mp h
    obtain ⟨config, hconfig, h⟩ := bind_eq_ok.mp h
    have hafter : AddressedClient.mk store (some config) = after := Except.ok.inj h
    subst hafter
    refine ⟨url, config, mapError_eq_ok.mp hurl, mapError_eq_ok.mp hconfig, ?_, rfl⟩
    have hswitched := mapError_eq_ok.mp hstore
    obtain ⟨_, -, hswitched⟩ := bind_eq_ok.mp hswitched
    obtain ⟨_, -, hswitched⟩ := bind_eq_ok.mp hswitched
    split at hswitched
    case isTrue => rw [← Except.ok.inj hswitched]
    case isFalse hkept =>
      rw [← Except.ok.inj hswitched]
      exact not_not.mp fun hne ↦ hkept (.inl hne)

end AddressCommand

/-- Two accepted texts are canonical: a second pass keeps what the first has made of them, and
where they name one address, they come to one text, in whatever record. -/
structure Canonical (raw raw' url url' : String) : Prop where
  fixed : normalizeServerUrl url = .ok url
  fixed' : normalizeServerUrl url' = .ok url'
  same : SameAddress raw raw' → url = url'
  records : SameAddress raw raw' → ∀ client after client' after' command command',
    command.baseUrl = raw → AddressCommand.run client command = .ok after →
    command'.baseUrl = raw' → AddressCommand.run client' command' = .ok after' →
      after.store.syncState.serverUrl = after'.config

/-- Accepted texts are canonical just where neither has white space before its slashes. -/
theorem normalizeServerUrl_canonical_iff {raw raw' url url' : String}
    (h : normalizeServerUrl raw = .ok url) (h' : normalizeServerUrl raw' = .ok url') :
    Canonical raw raw' url url' ↔ ¬ SpacedSlashes raw ∧ ¬ SpacedSlashes raw' := by
  constructor
  · intro hcanonical
    exact ⟨(normalizeServerUrl_fixed_iff h).mp hcanonical.fixed,
      (normalizeServerUrl_fixed_iff h').mp hcanonical.fixed'⟩
  · rintro ⟨hclean, hclean'⟩
    have hfixed' := (normalizeServerUrl_fixed_iff h').mpr hclean'
    refine ⟨(normalizeServerUrl_fixed_iff h).mpr hclean, hfixed',
      fun hsame ↦ hsame.url_eq h h' hclean hclean', ?_⟩
    intro hsame client after client' after' command command' hbase hrun hbase' hrun'
    obtain ⟨scope, _, hscope, -, hstore, -⟩ := AddressCommand.run_eq_ok hrun
    obtain ⟨first, config, hfirst, hsecond, -, hconfig⟩ := AddressCommand.run_eq_ok hrun'
    rw [hbase, h] at hscope
    rw [hbase', h'] at hfirst
    cases hscope
    cases hfirst
    rw [hfixed'] at hsecond
    cases hsecond
    rw [hstore, hconfig, hsame.url_eq h h' hclean hclean']

/-- A typed address with a blank around it and a slash behind it. -/
theorem normalizeServerUrl_canonical_localhost :
    Canonical " http://localhost:8000/ " "http://localhost:8000" "http://localhost:8000"
        "http://localhost:8000" ↔
      ¬ SpacedSlashes " http://localhost:8000/ " ∧ ¬ SpacedSlashes "http://localhost:8000" :=
  normalizeServerUrl_canonical_iff (by decide +kernel) (by decide +kernel)

/-- A blank before the slash survives the first pass and not the second. -/
theorem spacedSlash_notFixed : normalizeServerUrl "http://a /" = .ok "http://a " ∧
    normalizeServerUrl "http://a / " = .ok "http://a " ∧
    normalizeServerUrl "http://a " = .ok "http://a" := by
  decide +kernel

end Sync

end SkillHive
