import EShield.Ebpf.SynCookie

/-!
# The cookie secrets

The node sets the two secrets once when it starts and looks every 60 s whether the time bucket has
changed since; the data plane only reads them. Both use the monotonic clock.
-/

namespace EShield.Node

open Ebpf

/-- `now / 60`: the bucket of a monotonic clock reading in seconds. -/
def bucketOfSecs (nowS : UInt64) : UInt64 := nowS / 60

/-- What `init_cookie_secrets` writes. -/
def initCookieSecrets (current previous : BitVec 128) (nowS : UInt64) : CookieSecret :=
  { current := current, previous := previous, bucketIndex := bucketOfSecs nowS }

/-- One call of `rotate_cookie_secrets_inner`: the clock it reads and the bytes it draws. -/
structure Rotation where
  nowS : UInt64
  fresh : BitVec 128

/-- `rotate_cookie_secrets_inner`: a new bucket gets a new secret, the old one is kept behind it. -/
def rotateCookieSecretsInner (secret : CookieSecret) (r : Rotation) : CookieSecret :=
  if bucketOfSecs r.nowS ≤ secret.bucketIndex then secret
  else
    { current := r.fresh, previous := secret.current, bucketIndex := bucketOfSecs r.nowS }

/-- A run of rotations. -/
def rotateAll (secret : CookieSecret) (rs : List Rotation) : CookieSecret :=
  rs.foldl rotateCookieSecretsInner secret

end EShield.Node
