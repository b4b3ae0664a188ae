import Chinwag.Lib.Uuid

/-!
# The Redis keys of refresh tokens

Every key is the prefix followed by a suffix. Token suffixes are UUID texts, so no
token key is a lineage, member, user or session key, and a lineage key of a UUID is
not a members key, whatever the other identifiers are.
-/
namespace Chinwag.Auth

/-- `NewRefreshTokenService`: the key prefix and the token lifetime in whole seconds. -/
structure RefreshConfig where
  refreshTokenPrefix : String
  ttl : Nat
  ttl_pos : 0 < ttl

namespace RefreshConfig

variable (r : RefreshConfig)

def tokenKey (jti : String) : String := r.refreshTokenPrefix ++ jti

def lineageKey (sid : String) : String := r.refreshTokenPrefix ++ ("lineage:" ++ sid)

def lineageMembersKey (sid : String) : String :=
  r.refreshTokenPrefix ++ ("lineage:" ++ (sid ++ ":members"))

def userKey (userID : String) : String := r.refreshTokenPrefix ++ ("user:" ++ userID)

def sessionsKey : String := r.refreshTokenPrefix ++ "sessions"

end RefreshConfig

section Layout

variable (r : RefreshConfig) (u v : Uuid) (a b : String)

private theorem uuid_ne_append {p : String} (c : Char) (hc : c ∈ p.toList)
    (h : c ≠ '-' ∧ c ∉ Uuid.hexDigits) : u.text ≠ p ++ a := by
  intro he
  apply u.not_mem_text h
  rw [he, String.toList_append]
  exact List.mem_append_left _ hc

private theorem append_ne_of_head {p q : String} (h : p.toList.head? ≠ q.toList.head?)
    (hp : p.toList ≠ []) (hq : q.toList ≠ []) : p ++ a ≠ q ++ b := by
  intro he
  apply h
  have hl := congrArg (fun s : String => s.toList.head?) he
  simpa [String.toList_append, List.head?_append, List.head?_eq_some_head hp,
    List.head?_eq_some_head hq] using hl

@[simp] theorem tokenKey_inj : r.tokenKey a = r.tokenKey b ↔ a = b := String.append_right_inj _

@[simp] theorem lineageKey_inj : r.lineageKey a = r.lineageKey b ↔ a = b := by
  simp [RefreshConfig.lineageKey]

@[simp] theorem lineageMembersKey_inj : r.lineageMembersKey a = r.lineageMembersKey b ↔ a = b := by
  simp [RefreshConfig.lineageMembersKey]

@[simp] theorem userKey_inj : r.userKey a = r.userKey b ↔ a = b := by
  simp [RefreshConfig.userKey]

@[simp] theorem tokenKey_ne_lineageKey : r.tokenKey u.text ≠ r.lineageKey a := by
  simp only [RefreshConfig.tokenKey, RefreshConfig.lineageKey, ne_eq, String.append_right_inj]
  exact uuid_ne_append u a 'l' (by decide) (by decide)

@[simp] theorem tokenKey_ne_membersKey : r.tokenKey u.text ≠ r.lineageMembersKey a := by
  simp only [RefreshConfig.tokenKey, RefreshConfig.lineageMembersKey, ne_eq, String.append_right_inj]
  exact uuid_ne_append u _ 'l' (by decide) (by decide)

@[simp] theorem tokenKey_ne_userKey : r.tokenKey u.text ≠ r.userKey a := by
  simp only [RefreshConfig.tokenKey, RefreshConfig.userKey, ne_eq, String.append_right_inj]
  exact uuid_ne_append u a 'u' (by decide) (by decide)

@[simp] theorem tokenKey_ne_sessionsKey : r.tokenKey u.text ≠ r.sessionsKey := by
  simp only [RefreshConfig.tokenKey, RefreshConfig.sessionsKey, ne_eq, String.append_right_inj]
  have h := uuid_ne_append u "" (p := "sessions") 's' (by decide) (by decide)
  simpa using h

@[simp] theorem lineageKey_ne_membersKey : r.lineageKey u.text ≠ r.lineageMembersKey a := by
  simp only [RefreshConfig.lineageKey, RefreshConfig.lineageMembersKey, ne_eq, String.append_right_inj]
  intro he
  apply u.not_mem_text (c := ':') (by decide)
  rw [he, String.toList_append]
  exact List.mem_append_right _ (by decide)

@[simp] theorem lineageKey_ne_userKey : r.lineageKey a ≠ r.userKey b := by
  simp only [RefreshConfig.lineageKey, RefreshConfig.userKey, ne_eq, String.append_right_inj]
  exact append_ne_of_head a b (by decide) (by decide) (by decide)

@[simp] theorem lineageKey_ne_sessionsKey : r.lineageKey a ≠ r.sessionsKey := by
  simp only [RefreshConfig.lineageKey, RefreshConfig.sessionsKey, ne_eq, String.append_right_inj]
  have h := append_ne_of_head a "" (p := "lineage:") (q := "sessions") (by decide) (by decide) (by decide)
  simpa using h

@[simp] theorem membersKey_ne_userKey : r.lineageMembersKey a ≠ r.userKey b := by
  simp only [RefreshConfig.lineageMembersKey, RefreshConfig.userKey, ne_eq, String.append_right_inj]
  exact append_ne_of_head _ b (by decide) (by decide) (by decide)

@[simp] theorem membersKey_ne_sessionsKey : r.lineageMembersKey a ≠ r.sessionsKey := by
  simp only [RefreshConfig.lineageMembersKey, RefreshConfig.sessionsKey, ne_eq, String.append_right_inj]
  have h := append_ne_of_head (a ++ ":members") "" (p := "lineage:") (q := "sessions")
    (by decide) (by decide) (by decide)
  simpa using h

@[simp] theorem userKey_ne_sessionsKey : r.userKey a ≠ r.sessionsKey := by
  simp only [RefreshConfig.userKey, RefreshConfig.sessionsKey, ne_eq, String.append_right_inj]
  have h := append_ne_of_head a "" (p := "user:") (q := "sessions") (by decide) (by decide) (by decide)
  simpa using h

@[simp] theorem lineageKey_ne_tokenKey : r.lineageKey a ≠ r.tokenKey u.text :=
  (tokenKey_ne_lineageKey r u a).symm

@[simp] theorem membersKey_ne_tokenKey : r.lineageMembersKey a ≠ r.tokenKey u.text :=
  (tokenKey_ne_membersKey r u a).symm

@[simp] theorem userKey_ne_tokenKey : r.userKey a ≠ r.tokenKey u.text :=
  (tokenKey_ne_userKey r u a).symm

@[simp] theorem sessionsKey_ne_tokenKey : r.sessionsKey ≠ r.tokenKey u.text :=
  (tokenKey_ne_sessionsKey r u).symm

@[simp] theorem membersKey_ne_lineageKey : r.lineageMembersKey a ≠ r.lineageKey u.text :=
  (lineageKey_ne_membersKey r u a).symm

@[simp] theorem userKey_ne_lineageKey : r.userKey b ≠ r.lineageKey a :=
  (lineageKey_ne_userKey r a b).symm

@[simp] theorem sessionsKey_ne_lineageKey : r.sessionsKey ≠ r.lineageKey a :=
  (lineageKey_ne_sessionsKey r a).symm

@[simp] theorem userKey_ne_membersKey : r.userKey b ≠ r.lineageMembersKey a :=
  (membersKey_ne_userKey r a b).symm

@[simp] theorem sessionsKey_ne_membersKey : r.sessionsKey ≠ r.lineageMembersKey a :=
  (membersKey_ne_sessionsKey r a).symm

@[simp] theorem sessionsKey_ne_userKey : r.sessionsKey ≠ r.userKey a :=
  (userKey_ne_sessionsKey r a).symm

end Layout

end Chinwag.Auth
