import RkFlashd.Text.Bytes

/-! The session lock of `SerialDaemon`: one atomic owner, taken and given back by
compare-exchange. Each operation here is a single atomic access. -/
namespace RkFlashd

/-- `SerialDaemon::Owner`. -/
inductive Owner where
  | NONE
  | HTTP
  | SERIAL
  deriving DecidableEq, Repr

/-- `try_acquire(who)`: succeeds only on a free lock, not on one already held. -/
def try_acquire (owner who : Owner) : Bool × Owner :=
  if owner = .NONE then (true, who) else (false, owner)

/-- `release(who)` is ignored unless `who` is the owner. -/
def release (owner who : Owner) : Owner := if owner = who then .NONE else owner

def force_release (_owner : Owner) : Owner := .NONE

def is_busy (owner : Owner) : Bool := owner ≠ .NONE

end RkFlashd
