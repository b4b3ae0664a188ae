import Chinwag.Auth.RefreshService

/-!
# What the scripts leave behind

Under the layout the service itself keeps, the issue script and an accepted rotation
run to their end, and the server they leave is given key by key.
-/
namespace Chinwag.Auth

open Redis Script

variable (r : RefreshConfig)

/-- The expiry a script gives to the keys it writes. -/
def deadline (s : Server) : Nat := s.now + r.ttl * 1000

/-- The server after an issue, from one where the three keys of its UUIDs are absent. -/
def issued (s : Server) (sid jti : Uuid) (user jkt : String) (now : Int) : Server :=
  let active := setFields ∅ (activeFields sid.text user jkt (toString now))
  ((((s.set (r.tokenKey jti.text) (some ⟨.hash active, some (deadline r s)⟩)).set
    (r.lineageKey sid.text) (some ⟨.hash active, some (deadline r s)⟩)).set
    (r.lineageMembersKey sid.text) (some ⟨.set [jti.text], some (deadline r s)⟩)).set
    (r.userKey user) (some ⟨.zset ((indexOf s (r.userKey user)).insert sid.text now), none⟩)).set
    r.sessionsKey (some ⟨.zset ((indexOf s r.sessionsKey).insert sid.text now), none⟩)

theorem exec_issue (s : Server) (sid jti : Uuid) (user jkt : String) (now : Int)
    (ht : s.data (r.tokenKey jti.text) = none) (hl : s.data (r.lineageKey sid.text) = none)
    (hm : s.data (r.lineageMembersKey sid.text) = none) (hu : IsIndex s (r.userKey user))
    (hs : IsIndex s r.sessionsKey) :
    exec (issueRefreshTokenScript r sid.text jti.text user jkt (toString now)) s =
      (.ok "OK", issued r s sid jti user jkt now) := by
  have hms : 0 < r.ttl * 1000 := Nat.mul_pos r.ttl_pos (by decide)
  unfold issueRefreshTokenScript
  rw [exec_hset_pexpire (hashAt_of_data_none ht) _ hms,
    exec_hset_pexpire (hashAt_of_data_none (by simpa [Server.data_set] using hl)) _ hms,
    exec_sadd_expire (setAt_of_data_none (by simpa [Server.data_set] using hm)) _ r.ttl_pos,
    tonumber_toString]
  rw [exec_bind_ok _ (IsIndex.exec_zadd (hu.congr (by simp [Server.data_set])) now sid.text)]
  rw [exec_bind_ok _ (IsIndex.exec_zadd (hs.congr (by simp [Server.data_set])) now sid.text)]
  simp [issued, deadline, indexOf, Server.data_set]

section ActiveFields

variable (f : Fields) (sid userID jkt createdAt : String)

@[simp] theorem active_status :
    (setFields f (activeFields sid userID jkt createdAt)).lookup "status" = some "active" := by
  simp [activeFields]

@[simp] theorem active_sid :
    (setFields f (activeFields sid userID jkt createdAt)).lookup "sid" = some sid := by
  simp [activeFields]

@[simp] theorem active_user :
    (setFields f (activeFields sid userID jkt createdAt)).lookup "user_id" = some userID := by
  simp [activeFields]

@[simp] theorem active_created :
    (setFields f (activeFields sid userID jkt createdAt)).lookup "created_at" = some createdAt := by
  simp [activeFields]

end ActiveFields

theorem toString_ne_empty (n : Int) : toString n ≠ "" := by
  cases n with
  | ofNat n => exact Nat.repr_ne_empty
  | negSucc n =>
    intro h
    have hl := congrArg String.toList (show "-" ++ (n + 1).repr = "" from h)
    simp [String.toList_append] at hl

/-- The server after an accepted rotation of `c` into `newJti`; `base` is what the
hash of the new token held before, nothing when its UUID is fresh. -/
def rotated (s : Server) (c : RefreshTokenClaims) (newJti : Uuid) (now created : Int)
    (cur base lin : Fields) (members : List String) : Server :=
  let d := some (deadline r s)
  (((((s.set (r.tokenKey c.jti.text) (some ⟨.hash (setFields cur [("status", "consumed")]), d⟩)).set
    (r.tokenKey newJti.text)
      (some ⟨.hash (setFields base (activeFields c.sid.text c.subject c.jkt (toString now))), d⟩)).set
    (r.lineageKey c.sid.text)
      (some ⟨.hash (setFields lin (activeFields c.sid.text c.subject c.jkt (toString created))), d⟩)).set
    (r.lineageMembersKey c.sid.text) (some ⟨.set (members.insert newJti.text), d⟩)).set
    (r.userKey c.subject)
      (some ⟨.zset ((indexOf s (r.userKey c.subject)).insert c.sid.text created), none⟩)).set
    r.sessionsKey (some ⟨.zset ((indexOf s r.sessionsKey).insert c.sid.text created), none⟩)

theorem exec_rotateActive {s : Server} {c : RefreshTokenClaims} {newJti : Uuid} {now created : Int}
    {cur base lin : Fields} {members : List String}
    (ht : s.hashAt (r.tokenKey c.jti.text) = .ok cur) (hl : s.hashAt (r.lineageKey c.sid.text) = .ok lin)
    (hc : lin.lookup "created_at" = some (toString created))
    (hm : s.setAt (r.lineageMembersKey c.sid.text) = .ok members)
    (hn : (s.set (r.tokenKey c.jti.text) (some ⟨.hash (setFields cur [("status", "consumed")]),
      some (s.now + r.ttl * 1000)⟩)).hashAt (r.tokenKey newJti.text) = .ok base)
    (hu : IsIndex s (r.userKey c.subject)) (hs : IsIndex s r.sessionsKey) :
    exec (rotateActive r (r.tokenKey c.jti.text) (r.lineageKey c.sid.text) cur lin c.sid.text
        newJti.text c.subject c.jkt (toString now)) s =
      (.ok (luaArray [some "OK", cur.lookup "sid", some c.subject]),
        rotated r s c newJti now created cur base lin members) := by
  have hms : 0 < r.ttl * 1000 := Nat.mul_pos r.ttl_pos (by decide)
  have hcreated : lineageCreatedAt lin cur = some (toString created) := by
    unfold lineageCreatedAt
    rw [hc]
    exact if_neg (toString_ne_empty created)
  have hlin : ∀ e₁ e₂, ((s.set (r.tokenKey c.jti.text) e₁).set (r.tokenKey newJti.text) e₂).hashAt
      (r.lineageKey c.sid.text) = .ok lin :=
    fun e₁ e₂ => hl ▸ hashAt_congr (Server.get_congr (by simp [Server.data_set]) rfl)
  have hmem : ∀ e₁ e₂ e₃, (((s.set (r.tokenKey c.jti.text) e₁).set (r.tokenKey newJti.text) e₂).set
      (r.lineageKey c.sid.text) e₃).setAt (r.lineageMembersKey c.sid.text) = .ok members :=
    fun e₁ e₂ e₃ => hm ▸ setAt_congr (Server.get_congr (by simp [Server.data_set]) rfl)
  unfold rotateActive
  rw [exec_hset_pexpire ht _ hms, exec_hset_pexpire hn _ hms, hcreated]
  rw [exec_hset_pexpire (hlin _ _) _ hms, exec_sadd_expire (hmem _ _ _) _ r.ttl_pos, tonumber_toString]
  rw [exec_bind_ok _ (IsIndex.exec_zadd (hu.congr (by simp [Server.data_set])) created c.sid.text)]
  rw [exec_bind_ok _ (IsIndex.exec_zadd (hs.congr (by simp [Server.data_set])) created c.sid.text)]
  simp [rotated, deadline, indexOf, Server.data_set]

end Chinwag.Auth
