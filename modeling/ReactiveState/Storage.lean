import ReactiveState.KeyMap

/-! # Client storage

A stored field may be bound to the client's storage: to a cookie, to local storage or to session
storage.  The server only declares the binding and its options; the `StorageManifest` of a layout
lists all of them, keyed by the path and the name of the field. -/

namespace ReactiveState

/-- The options of a cookie. -/
structure CookieOptions where
  /-- The name of the cookie; the key of the field if absent. -/
  name : Option String := none
  path : String := "/"
  maxAge : Option Nat := none
  domain : Option String := none
  secure : Bool := false
  sameSite : Option String := none
deriving DecidableEq, Repr

/-- The options of local storage. -/
structure LocalOptions where
  name : Option String := none
  /-- Whether changes made in other tabs are taken over. -/
  sync : Bool := false
deriving DecidableEq, Repr

/-- The options of session storage. -/
structure SessionOptions where
  name : Option String := none
deriving DecidableEq, Repr

/-- Where the client keeps a field. -/
inductive ClientStorage where
  | cookie (options : CookieOptions)
  | local (options : LocalOptions)
  | session (options : SessionOptions)
deriving DecidableEq, Repr

/-- The bindings of a whole tree. -/
structure StorageManifest where
  cookies : List (String × CookieOptions) := []
  localStorage : List (String × LocalOptions) := []
  sessionStorage : List (String × SessionOptions) := []
deriving DecidableEq, Repr

namespace StorageManifest

/-- Adds the binding of a field. -/
def insert (m : StorageManifest) (key : String) : ClientStorage → StorageManifest
  | .cookie options => { m with cookies := KeyMap.insert key options m.cookies }
  | .local options => { m with localStorage := KeyMap.insert key options m.localStorage }
  | .session options => { m with sessionStorage := KeyMap.insert key options m.sessionStorage }

/-- Whether no field is bound. -/
def isEmpty (m : StorageManifest) : Bool :=
  m.cookies.isEmpty && m.localStorage.isEmpty && m.sessionStorage.isEmpty

end StorageManifest

end ReactiveState
