import CommandExpr.Host

/-!
# Relays

A relay is a transient file that carries the output of one pipeline stage to the next. Relays are
numbered through a session; one whose name is taken is skipped, never overwritten. A relay is
removed once: by `release` after its use, or by `drop` if it is given up before.

## Main definitions

* `RelayStore` — the directory of the relay files, `RelayStore.pathOf` the name of each
* `Relay.create` — the next relay whose name is free
* `Relay.write`, `Relay.openForRead`, `Relay.release`, `Relay.drop`
* `Relay.holding` — a computation that gives the relay up if it fails
-/

namespace CommandExpr

/-- Where relay files are made. -/
structure RelayStore where
  /-- The directory. -/
  dir : Path
  deriving DecidableEq

/-- The path of the relay with the given number. -/
def RelayStore.pathOf (store : RelayStore) (id : UInt64) : Path :=
  store.dir.join (Bytes.ofString s!"temp{id}.txt")

/-- A relay file that is open for writing. -/
structure Relay where
  /-- Its number. -/
  id : UInt64
  /-- Its path. -/
  path : Path
  /-- The handle it is written through. -/
  handle : Handle
  deriving DecidableEq

namespace Relay

variable {σ : Type}

/-- The most names that are tried for one relay. -/
def maxAttempts : Nat := 2 ^ 16

/-- A call of the file layer on a path: a NUL byte is refused before the host sees it. -/
def onPath {α : Type} (path : Path) (f : Path → σ → Except Errno α × σ) :
    Action σ (Except IoError α) := do
  if path.bytes.hasNul then return .error .nulInPath
  else
    match ← Host.call (f path) with
    | .ok a => return .ok a
    | .error e => return .error (.ofErrno e)

/-- Take the next number. -/
def takeId : Action σ UInt64 := fun s => (s.nextRelay, { s with nextRelay := s.nextRelay + 1 })

/-- Try the names from the next number on, at most `left` after the first of them; `tried` were
tried before. -/
def createFrom (h : Host σ) (store : RelayStore) (left tried : Nat) :
    Action σ (Except Failure Relay) := do
  let id ← takeId
  let path := store.pathOf id
  match ← onPath path h.createNew with
  | .ok handle =>
    h.note (.relayCreated path.display)
    return .ok ⟨id, path, handle⟩
  | .error e =>
    match left with
    | left + 1 =>
      if e.kind = .alreadyExists then
        h.note (.relayTaken path.display)
        createFrom h store left (tried + 1)
      else return .error (.relayNotCreated path.display e (tried + 1))
    | 0 => return .error (.relayNotCreated path.display e (tried + 1))

/-- Make the next relay whose name is free. -/
def create (h : Host σ) (store : RelayStore) : Attempt σ Relay :=
  Host.settle (createFrom h store (maxAttempts - 1) 0)

/-- Write the bytes of a capture after what was written before. -/
def write (h : Host σ) (relay : Relay) (output : Capture) : Attempt σ Unit := do
  match ← Host.ask (h.append relay.handle output.bytes) with
  | .ok () => h.note (.relayWritten relay.path.display output.length)
  | .error e => throw (.relayNotWritten relay.path.display (.ofErrno e))

/-- Open the relay's file anew, from its start. -/
def openForRead (h : Host σ) (relay : Relay) : Attempt σ Handle := do
  match ← ExceptT.lift (onPath relay.path h.openRead) with
  | .ok handle => return handle
  | .error e => throw (.relayNotOpened relay.path.display e)

/-- Close the relay and remove its file. -/
def dispose (h : Host σ) (relay : Relay) : Action σ (Except IoError Unit) := do
  Host.change (h.close relay.handle)
  onPath relay.path h.remove

/-- Give the relay back after its use; a file that cannot be removed is a failure. -/
def release (h : Host σ) (relay : Relay) : Attempt σ Unit := do
  match ← ExceptT.lift (dispose h relay) with
  | .ok () => h.note (.relayReleased relay.path.display)
  | .error e => throw (.relayNotRemoved relay.path.display e)

/-- Give the relay up; a file that cannot be removed is only logged. -/
def drop (h : Host σ) (relay : Relay) : Action σ Unit := do
  match ← dispose h relay with
  | .ok () => h.note (.relayDropped relay.path.display)
  | .error e => h.note (.relayLeft relay.path.display e)

/-- Run a computation that uses the relay, and give the relay up if it fails. -/
def holding {α : Type} (h : Host σ) (relay : Relay) (body : Attempt σ α) : Attempt σ α :=
  Host.settle do
    match ← body.run with
    | .ok a => return .ok a
    | .error e =>
      drop h relay
      return .error e

end Relay

end CommandExpr
