import Elura.Basis.Volatile
import Elura.Gateway.Presence

/-!
The online directory of `elura-adapters` on Redis keys, each with its own time to live. Every
script runs atomically at one value of a millisecond clock.
-/

namespace Elura

open Std (ExtTreeMap)

/-- The keys under one prefix. The values of `sessions` are JSON texts, here the
leases they encode; `memberships` are the keys `session-groups`. -/
structure RedisOnlineDirectory where
  sessions : Volatile Uuid SessionLease
  users : Volatile PlayerKey (Finset Uuid)
  single : Volatile PlayerKey Uuid
  memberships : Volatile Uuid (Finset String)
  groups : Volatile String (Finset Uuid)
  realms : Volatile RealmKey (Finset Uuid)
  capacity : Volatile RealmKey (ExtTreeMap Uuid Nat)

namespace RedisOnlineDirectory

def new : RedisOnlineDirectory where
  sessions := fun _ => none
  users := fun _ => none
  single := fun _ => none
  memberships := fun _ => none
  groups := fun _ => none
  realms := fun _ => none
  capacity := fun _ => none

def slots (redis : RedisOnlineDirectory) (now : Nat) (realm : RealmKey) : ExtTreeMap Uuid Nat :=
  redis.capacity.content now realm

def findPrevious (lease : SessionLease) (now : Nat) (redis : RedisOnlineDirectory) :
    Option Uuid × RedisOnlineDirectory :=
  match (redis.single.get now lease.identity.playerKey).filter (· ≠ lease.sessionId) with
  | none => (none, redis)
  | some previous =>
    if (redis.sessions.find now previous).isSome then (some previous, redis)
    else
      (none, { redis with
        single := redis.single.delete lease.identity.playerKey
        capacity := redis.capacity.alter now lease.identity.realmKey (·.erase previous) })

/-- `ZREMRANGEBYSCORE capacity -inf now`. -/
def dropExpired (realm : RealmKey) (now : Nat) (redis : RedisOnlineDirectory) :
    RedisOnlineDirectory :=
  { redis with
    capacity := redis.capacity.alter now realm (·.filter (fun _ score => now < score)) }

def transfersSlot (redis : RedisOnlineDirectory) (lease : SessionLease)
    (mode : DuplicateLoginMode) (previous : Option Uuid) (now : Nat) : Bool :=
  mode = .kickExisting && previous.any (· ∈ redis.slots now lease.identity.realmKey)

def full (redis : RedisOnlineDirectory) (lease : SessionLease) (mode : DuplicateLoginMode)
    (maximum : Nat) (previous : Option Uuid) (now : Nat) : Bool :=
  let slots := redis.slots now lease.identity.realmKey
  let used := slots.size - (redis.transfersSlot lease mode previous now).toNat
  0 < maximum && lease.sessionId ∉ slots && maximum ≤ used

def keptSlots (transfers : Bool) (previous : Option Uuid) (slots : ExtTreeMap Uuid Nat) :
    ExtTreeMap Uuid Nat :=
  match transfers, previous with
  | true, some previous => slots.erase previous
  | _, _ => slots

def register (ttl : Nat) (lease : SessionLease) (mode : DuplicateLoginMode)
    (previous : Option Uuid) (now : Nat) (redis : RedisOnlineDirectory) :
    RedisOnlineDirectory :=
  let user := lease.identity.playerKey
  let realm := lease.identity.realmKey
  let expiry := now + ttl
  let joined := redis.memberships.content now lease.sessionId
  let transfers := redis.transfersSlot lease mode previous now
  { sessions := redis.sessions.put lease.sessionId lease expiry
    users := (redis.users.alter now user (insert lease.sessionId)).expire now user expiry
    single :=
      match mode with
      | .allowMultiple => redis.single
      | .rejectNew | .kickExisting => redis.single.put user lease.sessionId expiry
    memberships := redis.memberships.expire now lease.sessionId expiry
    groups := redis.groups.expireAll now joined expiry
    realms := (redis.realms.alter now realm (insert lease.sessionId)).expire now realm expiry
    capacity := (redis.capacity.alter now realm
      (fun slots => (keptSlots transfers previous slots).insert lease.sessionId expiry)).expire
      now realm expiry }

def acquireScript (ttl : Nat) (lease : SessionLease) (mode : DuplicateLoginMode) (maximum now : Nat)
    (redis : RedisOnlineDirectory) : OnlineAdmission × RedisOnlineDirectory :=
  let (previous, redis) := redis.findPrevious lease now
  if mode = .rejectNew ∧ previous.isSome then (.duplicate, redis)
  else
    let redis := redis.dropExpired lease.identity.realmKey now
    if redis.full lease mode maximum previous now then (.realmFull, redis)
    else
      (.accepted (if mode = .kickExisting then previous else none),
        redis.register ttl lease mode previous now)

def acquire (ttl : Nat) (lease : SessionLease) (policy : OnlineAdmissionPolicy) (now : Nat) :
    Fallible RedisOnlineDirectory Error OnlineAdmission := do
  liftM lease.identity.validate
  let policy ← liftM (OnlineAdmissionPolicy.new policy.duplicateLogin policy.maxSessions)
  let redis ← get
  let result := redis.acquireScript ttl { lease with expiresAt := now + ttl } policy.duplicateLogin
    (policy.maxSessions.getD 0) now
  set result.2
  return result.1

def renewScript (ttl : Nat) (lease : SessionLease) (now : Nat) (redis : RedisOnlineDirectory) :
    RedisOnlineDirectory :=
  let user := lease.identity.playerKey
  let realm := lease.identity.realmKey
  let expiry := now + ttl
  { sessions := redis.sessions.put lease.sessionId lease expiry
    users := redis.users.expire now user expiry
    single :=
      if redis.single.get now user = some lease.sessionId then redis.single.expire now user expiry
      else redis.single
    memberships := redis.memberships.expire now lease.sessionId expiry
    groups := redis.groups.expireAll now (redis.memberships.content now lease.sessionId) expiry
    realms := redis.realms.expire now realm expiry
    capacity := (redis.capacity.alter now realm (·.insert lease.sessionId expiry)).expire
      now realm expiry }

def session (redis : RedisOnlineDirectory) (now : Nat) (id : Uuid) : Option SessionLease :=
  redis.sessions.get now id

def renew (ttl : Nat) (lease : SessionLease) (now : Nat) :
    Fallible RedisOnlineDirectory Error Unit := do
  let redis ← get
  if (redis.session now lease.sessionId).any (·.gatewayId = lease.gatewayId) then
    liftM lease.identity.validate
    set (redis.renewScript ttl { lease with expiresAt := now + ttl } now)
  else throw .sessionRevoked

def removeScript (id : Uuid) (identity : Identity) (joined : Finset String) (now : Nat)
    (redis : RedisOnlineDirectory) : RedisOnlineDirectory :=
  let user := identity.playerKey
  let realm := identity.realmKey
  { sessions := redis.sessions.delete id
    memberships := redis.memberships.delete id
    users := redis.users.alter now user (·.erase id)
    realms := redis.realms.alter now realm (·.erase id)
    capacity := redis.capacity.alter now realm (·.erase id)
    single :=
      if redis.single.get now user = some id then redis.single.delete user else redis.single
    groups := fun group =>
      if group ∈ joined then redis.groups.alter now group (·.erase id) group
      else redis.groups group }

def remove (id : Uuid) (now : Nat) (redis : RedisOnlineDirectory) : RedisOnlineDirectory :=
  match redis.session now id with
  | none => redis
  | some lease =>
    redis.removeScript id lease.identity (redis.memberships.content now id) now

def unregister (lease : SessionLease) (now : Nat) (redis : RedisOnlineDirectory) :
    RedisOnlineDirectory :=
  if (redis.session now lease.sessionId).any (·.gatewayId = lease.gatewayId) then
    redis.remove lease.sessionId now
  else redis

end RedisOnlineDirectory

end Elura
