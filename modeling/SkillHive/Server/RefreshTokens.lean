import Mathlib.Data.Fintype.EquivFin
import Mathlib.Logic.Relation
import SkillHive.Foundation.TransitionSystem
import SkillHive.Server.GroupRows

/-!
# Refresh tokens

A refresh looks up the session of the token that was presented, and later revokes it and issues
a successor. Nothing holds the session in between, and the update does not ask for the row that
was read: any number of refreshes may be between their lookups and their writes.

Signatures of tokens and drawn identifiers are given from outside.
-/

namespace SkillHive

open Foundation

namespace Server

namespace AuthService

/-! ## Tokens and their sessions -/

structure TokenSession where
  userId : RowId
  refreshJti : String
  expiresAt : ℕ
  revokedAt : Option ℕ
  deriving DecidableEq, Repr

/-- What a signed token says. -/
structure TokenClaims where
  type : Option String
  sub : Option String
  jti : Option String
  deriving DecidableEq, Repr

/-- `jwt.decode` at a time, and how long a refresh token lasts. -/
structure TokenSettings where
  decode : ℕ → String → Option TokenClaims
  refreshTokenExpire : ℕ

structure TokenPayload where
  sub : String
  jti : String
  deriving DecidableEq, Repr

/-- `decode_token(token, expected_type)` -/
def decodeToken (settings : TokenSettings) (now : ℕ) (token expectedType : String) :
    Option TokenPayload := do
  let claims ← settings.decode now token
  let sub ← claims.sub
  let jti ← claims.jti
  if claims.type ≠ some expectedType ∨ sub = "" ∨ jti = "" then none else some ⟨sub, jti⟩

/-- A refresh between its lookup and its write. -/
structure PendingRefresh where
  refreshJti : String
  userId : RowId
  deriving DecidableEq, Repr

abbrev Sessions := Table TokenSession TokenSession.refreshJti

/-- The statements of `refresh` up to the first write. -/
def checkRefresh (settings : TokenSettings) (accounts : Table Account Account.key)
    (sessions : Sessions) (now : ℕ) (refreshToken : String) : Except ServerError PendingRefresh :=
  match decodeToken settings now refreshToken "refresh" with
  | none => .error (appError "INVALID_REFRESH_TOKEN" "Refresh token is invalid." 401)
  | some payload =>
    match (sessions.get? payload.jti).filter fun session ↦
        session.revokedAt = none ∧ now < session.expiresAt with
    | none => .error (appError "SESSION_REVOKED" "This session is no longer valid." 401)
    | some _ =>
      match ((RowId.ofText? payload.sub).bind accounts.get?).filter fun user ↦
          user.status = .active with
      | none => .error (appError "USER_DISABLED" "This account is unavailable." 403)
      | some user => .ok { refreshJti := payload.jti, userId := user.id }

/-- `issue_tokens`: the row of the new session, under the identifier that was drawn. -/
def issueTokens (settings : TokenSettings) (sessions : Sessions) (userId : RowId) (now : ℕ)
    (refreshJti : String) : Option Sessions :=
  sessions.insert?
    { userId, refreshJti, expiresAt := now + settings.refreshTokenExpire, revokedAt := none }

abbrev TokenSession.revoke (now : ℕ) (session : TokenSession) : TokenSession :=
  { session with revokedAt := some now }

/-- The writes of `refresh` up to the commit. -/
def PendingRefresh.write (settings : TokenSettings) (sessions : Sessions) (refresh : PendingRefresh)
    (now : ℕ) (refreshJti : String) : Option Sessions :=
  issueTokens settings (sessions.modify refresh.refreshJti (TokenSession.revoke now))
    refresh.userId now refreshJti

/-- `UPDATE token_sessions … WHERE user_id = … AND revoked_at IS NULL` -/
def revokeAll (sessions : Sessions) (userId : RowId) (now : ℕ) : Sessions :=
  sessions.update (fun session ↦
    if session.userId = userId ∧ session.revokedAt = none then session.revoke now else session)
    fun session ↦ by split <;> rfl

def logout (settings : TokenSettings) (sessions : Sessions) (now : ℕ) (refreshToken : String) :
    Sessions :=
  match decodeToken settings now refreshToken "refresh" with
  | none => sessions
  | some payload => sessions.modify payload.jti (TokenSession.revoke now)

/-! ## Requests that overlap -/

section System

variable (ι : Type) [DecidableEq ι]

/-- The committed rows, the refreshes under way, and which token was redeemed for which. -/
structure State where
  accounts : Table Account Account.key
  sessions : Sessions
  pending : ι → Option PendingRefresh
  redemptions : List (String × String)

inductive Action where
  /-- `issue_tokens` for a user who has signed in. -/
  | login (userId : RowId) (now : ℕ) (refreshJti : String)
  | lookup (request : ι) (now : ℕ) (refreshToken : String)
  | write (request : ι) (now : ℕ) (refreshJti : String)
  /-- The request ends before its commit. -/
  | abandon (request : ι)
  | logout (now : ℕ) (refreshToken : String)
  /-- A changed or reset password, or a deleted account. -/
  | revokeAll (userId : RowId) (now : ℕ)
  | saveAccount (account : Account)

variable {ι}

def State.write (settings : TokenSettings) (s : State ι) (request : ι) (refresh : PendingRefresh)
    (now : ℕ) (refreshJti : String) : State ι :=
  match refresh.write settings s.sessions now refreshJti with
  | none => { s with pending := Function.update s.pending request none }
  | some sessions =>
    { s with
      sessions
      pending := Function.update s.pending request none
      redemptions := (refresh.refreshJti, refreshJti) :: s.redemptions }

def State.step (settings : TokenSettings) (s : State ι) : Action ι → Option (State ι)
  | .login userId now refreshJti =>
    if (s.accounts.get? userId).isSome then
      (issueTokens settings s.sessions userId now refreshJti).map fun sessions ↦
        { s with sessions }
    else none
  | .lookup request now refreshToken =>
    if s.pending request = none then
      let refresh := (checkRefresh settings s.accounts s.sessions now refreshToken).toOption
      some { s with pending := Function.update s.pending request refresh }
    else none
  | .write request now refreshJti =>
    (s.pending request).map fun refresh ↦ s.write settings request refresh now refreshJti
  | .abandon request => some { s with pending := Function.update s.pending request none }
  | .logout now refreshToken =>
    some { s with sessions := AuthService.logout settings s.sessions now refreshToken }
  | .revokeAll userId now => some { s with sessions := AuthService.revokeAll s.sessions userId now }
  | .saveAccount account =>
    some { s with accounts := (s.accounts.insert? account).getD (s.accounts.replace account) }

variable (ι) in
/-- Requests on the sessions, from a database on that has none. -/
def tokenService (settings : TokenSettings) : TransitionSystem (State ι) (Action ι) where
  init s := s.sessions = .empty ∧ (∀ request, s.pending request = none) ∧ s.redemptions = []
  step := State.step settings

/-- A refresh answered the second token for the first. -/
def State.Succeeds (s : State ι) (old new : String) : Prop := (old, new) ∈ s.redemptions

/-- The token's session is not revoked. -/
def State.Live (s : State ι) (refreshJti : String) : Prop :=
  ∃ session ∈ s.sessions, session.refreshJti = refreshJti ∧ session.revokedAt = none

/-- No token was redeemed twice, and of the tokens that descend from one at most one is live. -/
structure State.Rotated (s : State ι) : Prop where
  once : (s.redemptions.map Prod.fst).Nodup
  live : ∀ root first second, Relation.ReflTransGen s.Succeeds root first →
    Relation.ReflTransGen s.Succeeds root second → s.Live first → s.Live second → first = second

/-- The action ends a refresh that is under way. -/
def Action.IsEnd : Action ι → Prop
  | .write _ _ _ | .abandon _ => True
  | _ => False

/-- Tokens are rotated, however the refreshes under way end. -/
def State.Settles (settings : TokenSettings) (s : State ι) : Prop :=
  ∀ ends : List (Action ι), (∀ action ∈ ends, action.IsEnd) →
    (tokenService ι settings).Always State.Rotated s ends

/-- A lookup that passes meets no refresh under way that has passed for the same token. -/
def PassesAlone (settings : TokenSettings) (s : State ι) : Action ι → Prop
  | .lookup _ now refreshToken =>
    ∀ refresh ∈ (checkRefresh settings s.accounts s.sessions now refreshToken).toOption,
      ∀ other, ∀ rival ∈ s.pending other, rival.refreshJti ≠ refresh.refreshJti
  | _ => True

instance [Fintype ι] (settings : TokenSettings) (s : State ι) :
    (action : Action ι) → Decidable (PassesAlone settings s action)
  | .lookup _ now refreshToken => inferInstanceAs (Decidable (
      ∀ refresh ∈ (checkRefresh settings s.accounts s.sessions now refreshToken).toOption,
        ∀ other, ∀ rival ∈ s.pending other, rival.refreshJti ≠ refresh.refreshJti))
  | .login _ _ _ | .write _ _ _ | .abandon _ | .logout _ _ | .revokeAll _ _ | .saveAccount _ =>
    .isTrue trivial

end System

/-! ## What becomes of a session -/

variable {settings : TokenSettings} {sessions sessions' sessions'' : Sessions} {now : ℕ}
  {refreshJti : String}

/-- Rows stay, and a revoked session stays revoked. -/
def Keeps (sessions sessions' : Sessions) : Prop :=
  ∀ jti session, sessions.get? jti = some session →
    ∃ session', sessions'.get? jti = some session' ∧
      (session.revokedAt.isSome → session'.revokedAt.isSome)

theorem Keeps.refl (sessions : Sessions) : Keeps sessions sessions :=
  fun _ session h ↦ ⟨session, h, id⟩

theorem Keeps.trans (h : Keeps sessions sessions') (h' : Keeps sessions' sessions'') :
    Keeps sessions sessions'' := by
  intro jti session hget
  obtain ⟨session', hget', hrevoked⟩ := h jti session hget
  obtain ⟨session'', hget'', hrevoked'⟩ := h' jti session' hget'
  exact ⟨session'', hget'', hrevoked' ∘ hrevoked⟩

theorem keeps_modify (sessions : Sessions) (jti : String) (now : ℕ) :
    Keeps sessions (sessions.modify jti (TokenSession.revoke now)) := by
  intro other session hget
  rw [Table.get?_modify, hget]
  split
  · exact ⟨session.revoke now, rfl, fun _ ↦ rfl⟩
  · exact ⟨session, rfl, id⟩

theorem keeps_revokeAll (sessions : Sessions) (userId : RowId) (now : ℕ) :
    Keeps sessions (revokeAll sessions userId now) := by
  intro jti session hget
  rw [revokeAll, Table.get?_update, hget]
  refine ⟨_, rfl, fun hrevoked ↦ ?_⟩
  dsimp only
  split
  · rfl
  · exact hrevoked

theorem keeps_logout (settings : TokenSettings) (sessions : Sessions) (now : ℕ) (token : String) :
    Keeps sessions (logout settings sessions now token) := by
  unfold logout
  cases decodeToken settings now token "refresh" with
  | none => exact .refl sessions
  | some payload => exact keeps_modify sessions payload.jti now

theorem keeps_issueTokens {userId : RowId}
    (h : issueTokens settings sessions userId now refreshJti = some sessions') :
    Keeps sessions sessions' := by
  intro jti session hget
  have hne : jti ≠ refreshJti := by
    rintro rfl
    cases hget.symm.trans (Table.get?_eq_none_of_insert? h)
  exact ⟨session, by rw [Table.get?_insert? h, if_neg hne, hget], id⟩

theorem keeps_write {refresh : PendingRefresh}
    (h : refresh.write settings sessions now refreshJti = some sessions') :
    Keeps sessions sessions' :=
  (keeps_modify sessions refresh.refreshJti now).trans (keeps_issueTokens h)

/-- A refresh that commits has revoked the session of its token. -/
theorem revoked_of_write {refresh : PendingRefresh} {session : TokenSession}
    (hstored : sessions.get? refresh.refreshJti = some session)
    (h : refresh.write settings sessions now refreshJti = some sessions') :
    ∃ session', sessions'.get? refresh.refreshJti = some session' ∧ session'.revokedAt.isSome := by
  have hrevoke : (sessions.modify refresh.refreshJti (TokenSession.revoke now)).get?
      refresh.refreshJti = some (session.revoke now) := by
    rw [Table.get?_modify_self, hstored, Option.map_some]
  obtain ⟨session', hget, hrevoked⟩ := keeps_issueTokens h _ _ hrevoke
  exact ⟨session', hget, hrevoked rfl⟩

/-- An identifier that no session has makes the write commit. -/
theorem exists_write (settings : TokenSettings) (sessions : Sessions) (refresh : PendingRefresh)
    (now : ℕ) : ∃ refreshJti sessions',
      refresh.write settings sessions now refreshJti = some sessions' := by
  have : Infinite String := .of_injective String.ofList fun _ _ ↦ String.ofList_injective
  obtain ⟨refreshJti, hfresh⟩ :=
    Infinite.exists_notMem_finset (sessions.rows.map TokenSession.refreshJti).toFinset
  rw [List.mem_toFinset] at hfresh
  refine ⟨refreshJti, Table.insert?_isSome ?_⟩
  have hnone : sessions.get? refreshJti = none :=
    Table.get?_eq_none_iff.mpr fun session hsession hkey ↦
      hfresh (hkey ▸ List.mem_map_of_mem hsession)
  rw [Table.get?_modify, hnone]
  split <;> rfl

/-- The session that a lookup passes for is stored and not revoked. -/
theorem live_of_checkRefresh {accounts : Table Account Account.key} {token : String}
    {refresh : PendingRefresh}
    (h : checkRefresh settings accounts sessions now token = .ok refresh) :
    ∃ session, sessions.get? refresh.refreshJti = some session ∧ session.revokedAt = none := by
  unfold checkRefresh at h
  split at h
  case h_1 => cases h
  case h_2 payload hpayload =>
    split at h
    case h_1 => cases h
    case h_2 session hsession =>
      split at h
      case h_1 => cases h
      case h_2 user huser =>
        cases h
        obtain ⟨hget, hlive⟩ := Option.filter_eq_some_iff.mp hsession
        exact ⟨session, hget, (of_decide_eq_true hlive).1⟩

/-! ## What is recorded -/

section Steps

variable {ι : Type} [DecidableEq ι] {s s' : State ι} {action : Action ι}

def State.Redeemed (s : State ι) (refreshJti : String) : Prop :=
  refreshJti ∈ s.redemptions.map Prod.fst

/-- The session of a redeemed token is revoked, and that of a refresh under way is stored. -/
structure Recorded (s : State ι) : Prop where
  redeemed : ∀ jti, s.Redeemed jti →
    ∃ session, s.sessions.get? jti = some session ∧ session.revokedAt.isSome
  pending : ∀ request, ∀ refresh ∈ s.pending request,
    ∃ session, s.sessions.get? refresh.refreshJti = some session

omit [DecidableEq ι] in
theorem Recorded.of_keeps (h : Recorded s) (hkeeps : Keeps s.sessions s'.sessions)
    (hpending : s'.pending = s.pending) (hredemptions : s'.redemptions = s.redemptions) :
    Recorded s' := by
  constructor
  · intro jti hjti
    rw [State.Redeemed, hredemptions] at hjti
    obtain ⟨session, hget, hrevoked⟩ := h.redeemed jti hjti
    obtain ⟨session', hget', hkept⟩ := hkeeps jti session hget
    exact ⟨session', hget', hkept hrevoked⟩
  · intro request refresh hrefresh
    obtain ⟨session, hget⟩ := h.pending request refresh (hpending ▸ hrefresh)
    obtain ⟨session', hget', -⟩ := hkeeps _ session hget
    exact ⟨session', hget'⟩

theorem mem_pending_update {request other : ι} {refresh : Option PendingRefresh}
    {found : PendingRefresh} : found ∈ Function.update s.pending request refresh other ↔
      found ∈ refresh ∧ other = request ∨ found ∈ s.pending other ∧ other ≠ request := by
  rw [Function.update_apply]
  split
  case isTrue heq => simp [heq]
  case isFalse hne => simp [hne]

theorem Recorded.finish (h : Recorded s) (request : ι) :
    Recorded { s with pending := Function.update s.pending request none } := by
  refine ⟨h.redeemed, fun other refresh hrefresh ↦ ?_⟩
  rcases mem_pending_update.mp hrefresh with ⟨hnone, -⟩ | ⟨hold, -⟩
  · cases hnone
  · exact h.pending other refresh hold

theorem Recorded.write (h : Recorded s) {request : ι} {refresh : PendingRefresh}
    (hrefresh : s.pending request = some refresh) (now : ℕ) (refreshJti : String) :
    Recorded (s.write settings request refresh now refreshJti) := by
  unfold State.write
  split
  case h_1 => exact h.finish request
  case h_2 sessions hwrite =>
    have hrest : Recorded { s with
        sessions, pending := Function.update s.pending request none } :=
      (h.finish request).of_keeps (keeps_write hwrite) rfl rfl
    refine ⟨fun jti hjti ↦ ?_, hrest.pending⟩
    rcases List.mem_cons.mp hjti with rfl | hold
    · obtain ⟨session, hstored⟩ := h.pending request refresh hrefresh
      exact revoked_of_write hstored hwrite
    · exact hrest.redeemed jti hold

theorem Recorded.step (h : Recorded s)
    (hstep : (tokenService ι settings).step s action = some s') : Recorded s' := by
  cases action with
  | login userId now refreshJti =>
    obtain ⟨-, hstep⟩ := Option.ite_none_right_eq_some.mp hstep
    obtain ⟨sessions, hissue, rfl⟩ := Option.map_eq_some_iff.mp hstep
    exact h.of_keeps (keeps_issueTokens hissue) rfl rfl
  | lookup request now token =>
    obtain ⟨-, hstep⟩ := Option.ite_none_right_eq_some.mp hstep
    cases hstep
    refine ⟨h.redeemed, fun other refresh hrefresh ↦ ?_⟩
    rcases mem_pending_update.mp hrefresh with ⟨hpassed, -⟩ | ⟨hold, -⟩
    · obtain ⟨session, hget, -⟩ := live_of_checkRefresh (toOption_eq_some.mp hpassed)
      exact ⟨session, hget⟩
    · exact h.pending other refresh hold
  | write request now refreshJti =>
    obtain ⟨refresh, hrefresh, rfl⟩ := Option.map_eq_some_iff.mp hstep
    exact h.write hrefresh now refreshJti
  | abandon request =>
    cases hstep
    exact h.finish request
  | logout now token =>
    cases hstep
    exact h.of_keeps (keeps_logout settings s.sessions now token) rfl rfl
  | revokeAll userId now =>
    cases hstep
    exact h.of_keeps (keeps_revokeAll s.sessions userId now) rfl rfl
  | saveAccount account =>
    cases hstep
    exact h.of_keeps (.refl s.sessions) rfl rfl

/-! ## Rotation -/

omit [DecidableEq ι] in
/-- From a live token no other one descends. -/
theorem eq_of_descends (h : Recorded s) {first second : String} (hlive : s.Live first)
    (hdescends : Relation.ReflTransGen s.Succeeds first second) : first = second := by
  rcases hdescends.cases_head with heq | ⟨next, hnext, -⟩
  · exact heq
  · obtain ⟨session, hget, hrevoked⟩ := h.redeemed first (List.mem_map_of_mem hnext)
    obtain ⟨session', hmem, hjti, hnone⟩ := hlive
    have hget' : s.sessions.get? first = some session' := Table.get?_eq_some_iff.mpr ⟨hmem, hjti⟩
    cases hget.symm.trans hget'
    rw [hnone] at hrevoked
    cases hrevoked

omit [DecidableEq ι] in
theorem rotated_iff (h : Recorded s) : s.Rotated ↔ (s.redemptions.map Prod.fst).Nodup := by
  refine ⟨State.Rotated.once, fun honce ↦ ⟨honce, ?_⟩⟩
  intro root first second hfirst hsecond hlive hlive'
  have hunique : Relator.RightUnique s.Succeeds := by
    intro old new new' hnew hnew'
    have heq := List.inj_on_of_nodup_map honce hnew hnew' rfl
    exact congrArg Prod.snd heq
  rcases Relation.ReflTransGen.total_of_right_unique hunique hfirst hsecond with hto | hfrom
  · exact eq_of_descends h hlive hto
  · exact (eq_of_descends h hlive' hfrom).symm

/-- The refreshes under way are for different tokens, none of which was redeemed. -/
structure Apart (s : State ι) : Prop where
  once : (s.redemptions.map Prod.fst).Nodup
  ahead : ∀ request, ∀ refresh ∈ s.pending request, ¬ s.Redeemed refresh.refreshJti
  apart : ∀ request other, ∀ refresh ∈ s.pending request, ∀ rival ∈ s.pending other,
    rival.refreshJti = refresh.refreshJti → other = request

namespace Apart

theorem finish (h : Apart s) (request : ι) :
    Apart { s with pending := Function.update s.pending request none } := by
  have hold : ∀ other, ∀ refresh ∈ Function.update s.pending request none other,
      refresh ∈ s.pending other := by
    intro other refresh hrefresh
    rcases mem_pending_update.mp hrefresh with ⟨hnone, -⟩ | ⟨hold, -⟩
    · cases hnone
    · exact hold
  exact ⟨h.once, fun other refresh hrefresh ↦ h.ahead other refresh (hold other refresh hrefresh),
    fun first second refresh hrefresh rival hrival ↦
      h.apart first second refresh (hold first refresh hrefresh) rival (hold second rival hrival)⟩

theorem write (h : Apart s) {request : ι} {refresh : PendingRefresh}
    (hrefresh : s.pending request = some refresh) (now : ℕ) (refreshJti : String) :
    Apart (s.write settings request refresh now refreshJti) := by
  have hfinish := h.finish request
  unfold State.write
  split
  case h_1 => exact hfinish
  case h_2 sessions hwrite =>
    refine ⟨List.nodup_cons.mpr ⟨h.ahead request refresh hrefresh, h.once⟩, ?_, hfinish.apart⟩
    intro other rival hrival hredeemed
    rcases List.mem_cons.mp hredeemed with heq | hold
    · rcases mem_pending_update.mp hrival with ⟨hnone, -⟩ | ⟨hother, hne⟩
      · cases hnone
      · exact hne (h.apart request other refresh hrefresh rival hother heq)
    · exact hfinish.ahead other rival hrival hold

theorem end_step (h : Apart s) (hend : action.IsEnd)
    (hstep : (tokenService ι settings).step s action = some s') : Apart s' := by
  cases action with
  | write request now refreshJti =>
    obtain ⟨refresh, hrefresh, rfl⟩ := Option.map_eq_some_iff.mp hstep
    exact h.write hrefresh now refreshJti
  | abandon request =>
    cases hstep
    exact h.finish request
  | login _ _ _ | lookup _ _ _ | logout _ _ | revokeAll _ _ | saveAccount _ => exact hend.elim

end Apart

/-! ## Every run -/

/-- A write under an identifier that no session has redeems the token of the request. -/
theorem exists_write_step (settings : TokenSettings) {request : ι} {refresh : PendingRefresh}
    (hrefresh : s.pending request = some refresh) :
    ∃ action : Action ι, action.IsEnd ∧ ∃ s', (tokenService ι settings).step s action = some s' ∧
      s'.redemptions.map Prod.fst = refresh.refreshJti :: s.redemptions.map Prod.fst ∧
      ∀ other, other ≠ request → s'.pending other = s.pending other := by
  obtain ⟨refreshJti, sessions, hwrite⟩ := exists_write settings s.sessions refresh 0
  refine ⟨.write request 0 refreshJti, trivial, s.write settings request refresh 0 refreshJti,
    Option.map_eq_some_iff.mpr ⟨refresh, hrefresh, rfl⟩, ?_, fun other hne ↦ ?_⟩
  · rw [State.write, hwrite]
    rfl
  · rw [State.write, hwrite]
    exact Function.update_of_ne hne none s.pending

/-- Tokens are rotated whatever becomes of the refreshes under way, exactly if these are for
different tokens that were not redeemed. -/
theorem settles_iff_apart (hrecorded : Recorded s) : s.Settles settings ↔ Apart s := by
  constructor
  · intro h
    have hwrites : ∀ request refresh, s.pending request = some refresh →
        ¬ s.Redeemed refresh.refreshJti ∧ ∀ other, ∀ rival ∈ s.pending other,
          rival.refreshJti = refresh.refreshJti → other = request := by
      intro request refresh hrefresh
      obtain ⟨action, hend, s', hstep, hredemptions, hpending⟩ := exists_write_step settings hrefresh
      constructor
      · intro hredeemed
        have hrotated := ((h [action] (by simpa using hend)).2 s' hstep).head
        have honce := hrotated.once
        rw [hredemptions] at honce
        exact (List.nodup_cons.mp honce).1 hredeemed
      · intro other rival hrival heq
        by_contra hne
        obtain ⟨action', hend', s'', hstep', hredemptions', -⟩ :=
          exists_write_step settings ((hpending other hne).trans hrival)
        have hends : ∀ action'' ∈ [action, action'], action''.IsEnd := by simp [hend, hend']
        have hrotated := ((h [action, action'] hends).2 s' hstep).2 s'' hstep'
        have honce := hrotated.head.once
        rw [hredemptions', hredemptions, heq] at honce
        exact (List.nodup_cons.mp honce).1 List.mem_cons_self
    exact ⟨(h [] (by simp)).once, fun request refresh hrefresh ↦ (hwrites request refresh hrefresh).1,
      fun request other refresh hrefresh ↦ (hwrites request refresh hrefresh).2 other⟩
  · intro h ends hends
    refine TransitionSystem.Always.mono (P := fun t ↦ Recorded t ∧ Apart t)
      (fun t ht ↦ (rotated_iff ht.1).mpr ht.2.once) ?_
    refine TransitionSystem.EachStep.always (C := fun _ action ↦ action.IsEnd)
      (fun t action t' ht hend hstep ↦ ⟨ht.1.step hstep, ht.2.end_step hend hstep⟩) ?_
      ⟨hrecorded, h⟩
    exact TransitionSystem.eachStep_of_forall (fun action haction _ ↦ hends action haction) s

omit [DecidableEq ι] in
theorem Apart.of_eq (h : Apart s) (hpending : s'.pending = s.pending)
    (hredemptions : s'.redemptions = s.redemptions) : Apart s' := by
  obtain ⟨honce, hahead, hapart⟩ := h
  constructor <;> simpa only [State.Redeemed, hpending, hredemptions]

/-- A lookup keeps the refreshes under way apart exactly if it passes alone. -/
theorem apart_lookup_iff (hrecorded : Recorded s) (h : Apart s) {request : ι} {token : String}
    (hnone : s.pending request = none) :
    Apart { s with
      pending := Function.update s.pending request
        (checkRefresh settings s.accounts s.sessions now token).toOption } ↔
      PassesAlone settings s (.lookup request now token) := by
  constructor
  · intro hafter refresh hrefresh other rival hrival heq
    have hne : other ≠ request := by
      rintro rfl
      rw [hnone] at hrival
      cases hrival
    exact hne (hafter.apart request other refresh (mem_pending_update.mpr (.inl ⟨hrefresh, rfl⟩))
      rival (mem_pending_update.mpr (.inr ⟨hrival, hne⟩)) heq)
  · intro halone
    refine ⟨h.once, fun other refresh hrefresh hredeemed ↦ ?_, ?_⟩
    · rcases mem_pending_update.mp hrefresh with ⟨hpassed, -⟩ | ⟨hold, -⟩
      · obtain ⟨session, hget, hlive⟩ := live_of_checkRefresh (toOption_eq_some.mp hpassed)
        obtain ⟨session', hget', hrevoked⟩ := hrecorded.redeemed _ hredeemed
        cases hget.symm.trans hget'
        rw [hlive] at hrevoked
        cases hrevoked
      · exact h.ahead other refresh hold hredeemed
    · intro first second refresh hrefresh rival hrival heq
      rcases mem_pending_update.mp hrefresh with ⟨hpassed, rfl⟩ | ⟨hold, hne⟩ <;>
        rcases mem_pending_update.mp hrival with ⟨hpassed', rfl⟩ | ⟨hold', hne'⟩
      · rfl
      · exact absurd heq (halone refresh hpassed second rival hold')
      · exact absurd heq.symm (halone rival hpassed' first refresh hold)
      · exact h.apart first second refresh hold rival hold' heq

theorem settles_step_iff (hrecorded : Recorded s) (hsettles : s.Settles settings)
    (hstep : (tokenService ι settings).step s action = some s') :
    s'.Settles settings ↔ PassesAlone settings s action := by
  have hapart := (settles_iff_apart hrecorded).mp hsettles
  rw [settles_iff_apart (hrecorded.step hstep)]
  cases action with
  | login userId now refreshJti =>
    obtain ⟨-, hstep⟩ := Option.ite_none_right_eq_some.mp hstep
    obtain ⟨sessions, -, rfl⟩ := Option.map_eq_some_iff.mp hstep
    exact iff_of_true (hapart.of_eq rfl rfl) trivial
  | lookup request now token =>
    obtain ⟨hnone, hstep⟩ := Option.ite_none_right_eq_some.mp hstep
    cases hstep
    exact apart_lookup_iff hrecorded hapart hnone
  | write request now refreshJti =>
    have hend : (Action.write request now refreshJti).IsEnd := trivial
    exact iff_of_true (hapart.end_step hend hstep) trivial
  | abandon request =>
    have hend : (Action.abandon request).IsEnd := trivial
    exact iff_of_true (hapart.end_step hend hstep) trivial
  | logout now token =>
    cases hstep
    exact iff_of_true (hapart.of_eq rfl rfl) trivial
  | revokeAll userId now =>
    cases hstep
    exact iff_of_true (hapart.of_eq rfl rfl) trivial
  | saveAccount account =>
    cases hstep
    exact iff_of_true (hapart.of_eq rfl rfl) trivial

/-- In every state of a run, however the refreshes under way end, no token was redeemed twice
and of the tokens that descend from one at most one is live, exactly if every lookup that passes
does so while no refresh for the same token is under way. -/
theorem always_settles_iff_passesAlone (hinit : (tokenService ι settings).init s)
    (actions : List (Action ι)) :
    (tokenService ι settings).Always (State.Settles settings) s actions ↔
      (tokenService ι settings).EachStep (PassesAlone settings) s actions := by
  obtain ⟨-, hpending, hredemptions⟩ := hinit
  have hidle : ∀ request refresh, refresh ∉ s.pending request := by simp [hpending]
  have hrecorded : Recorded s :=
    ⟨by simp [State.Redeemed, hredemptions], fun request refresh h ↦ absurd h (hidle request refresh)⟩
  refine TransitionSystem.always_iff_eachStep (I := Recorded) (fun _ _ _ h hstep ↦ h.step hstep)
    (fun _ _ _ h hsettles hstep ↦ settles_step_iff h hsettles hstep) hrecorded ?_
  refine (settles_iff_apart hrecorded).mpr ⟨by simp [hredemptions], ?_, ?_⟩
  · exact fun request refresh h ↦ absurd h (hidle request refresh)
  · exact fun request _ refresh h ↦ absurd h (hidle request refresh)

end Steps

/-! ### One token presented twice -/

namespace Sample

/-- A token is its identifier, in the name of the one account. -/
def tokenSettings : TokenSettings where
  decode _ token := some ⟨some "refresh", some "user-1", some token⟩
  refreshTokenExpire := 1000

def account : Account where
  id := Server.Sample.firstUser
  isGlobalAdmin := false
  username := "alice"
  email := "alice@example.com"
  status := .active

/-- Two requests, no session yet. -/
def start : State Bool where
  accounts := ⟨[account], by decide⟩
  sessions := .empty
  pending _ := none
  redemptions := []

/-- The second request presents the successor. -/
def chainRun : List (Action Bool) :=
  [.login account.id 0 "first", .lookup false 1 "first", .write false 2 "second",
    .lookup true 3 "second", .write true 4 "third", .lookup false 5 "first"]

/-- Both requests look up the same token before either of them writes. -/
def twiceRun : List (Action Bool) :=
  [.login account.id 0 "first", .lookup false 1 "first", .lookup true 1 "first",
    .write false 2 "second", .write true 2 "third"]

end Sample

open SkillHive.Server.AuthService.Sample in
theorem always_settles_chainRun :
    (tokenService Bool tokenSettings).Always (State.Settles tokenSettings) start chainRun :=
  (always_settles_iff_passesAlone ⟨rfl, fun _ ↦ rfl, rfl⟩ _).mpr (by decide +kernel)

open SkillHive.Server.AuthService.Sample in
/-- The token is redeemed twice, and both of its successors are live. -/
theorem twiceRun_redeems :
    (tokenService Bool tokenSettings).init start ∧
      ∃ t, (tokenService Bool tokenSettings).run start twiceRun = some t ∧
        t.redemptions = [("first", "third"), ("first", "second")] ∧
        t.Live "second" ∧ t.Live "third" ∧ ¬ t.Rotated := by
  have hlooks : ((tokenService Bool tokenSettings).run start twiceRun).map (fun t ↦
      (t.redemptions, t.sessions.rows.map fun session ↦
        (session.refreshJti, session.revokedAt))) =
      some ([("first", "third"), ("first", "second")],
        [("first", some 2), ("second", none), ("third", none)]) := by
    decide +kernel
  obtain ⟨t, hrun, ht⟩ := Option.map_eq_some_iff.mp hlooks
  obtain ⟨hredemptions, hsessions⟩ := Prod.mk.injEq .. ▸ ht
  have hlive : ∀ jti, (jti, none) ∈ t.sessions.rows.map (fun session ↦
      (session.refreshJti, session.revokedAt)) → t.Live jti := by
    intro jti h
    obtain ⟨session, hmem, heq⟩ := List.mem_map.mp h
    obtain ⟨hjti, hnone⟩ := Prod.mk.injEq .. ▸ heq
    exact ⟨session, hmem, hjti, hnone⟩
  rw [hsessions] at hlive
  refine ⟨⟨rfl, fun _ ↦ rfl, rfl⟩, t, hrun, hredemptions, hlive _ (by decide), hlive _ (by decide),
    fun hrotated ↦ ?_⟩
  have honce := hrotated.once
  rw [hredemptions] at honce
  exact absurd honce (by decide)

end AuthService

end Server

end SkillHive
