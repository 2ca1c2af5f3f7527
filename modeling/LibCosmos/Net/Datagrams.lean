import LibCosmos.FS.FileDescriptor
import LibCosmos.Foundation.Machine
import LibCosmos.Foundation.Mail
import LibCosmos.Net.UnixAddress
import Mathlib.Data.List.TakeWhile

/-
  UNIX domain datagram sockets
  (`include/net/unix/UnixDatagramSocket.hxx`,
  `src/net/Socket.cxx`): binding, sending to an address and
  receiving with the address of the sender.

  Any number of sockets is used in any order. The kernel
  reads addresses off the bytes that `basePtr()` and `size()`
  describe. It tells the sender's address when a datagram is
  received. What is received is answered to the address that
  came with it.

  Main declarations:
    * `Datagrams.Name`, `Datagrams.nameOf`
    * `Datagrams.bind`, `Datagrams.sendTo`,
      `Datagrams.receiveFrom`
    * `Datagrams.machine`, `Datagrams.Reports`,
      `Datagrams.Faithful`
    * `Datagrams.replies_arrive`
-/

namespace Cosmos

open Mail

namespace Datagrams

------------------------------------------------------------
-- Names
------------------------------------------------------------

/- A socket in the file system or in the kernel's table. -/
inductive Name where
| file (path : Str)
| abstract (name : Str)
deriving DecidableEq, Repr

namespace Name

/- The used bytes of `sun_path` as the kernel reads them. -/
def ofPath : List Byte → Option Name
| [] => none
| c :: rest =>
    if c = 0 then some (.abstract rest)
    else some (.file ((c :: rest).takeWhile (· ≠ 0)))

/- Names that fit with their NUL character. -/
def Short : Name → Prop
| .file path => path ≠ [] ∧ 0 ∉ path ∧ path.length ≤ 107
| .abstract name => name.length ≤ 107

/- The name of a closed socket stays in the file system. -/
def freed : Name → Bool
| .file _ => false
| .abstract _ => true

def path : Name → Str
| .file path => path
| .abstract name => name

/- What the kernel writes for a name. -/
def encoded : Name → List Byte
| .file path => path ++ [0]
| .abstract name => 0 :: name

def report (n : Name) : UnixAddress.Report where
  family := SockaddrUn.afUnix
  path := n.encoded.take 108
  fits := List.length_take_le _ _
  addrlen := UInt64.ofNat (2 + 1 + n.path.length)

end Name

/- No address of a sender, the structure is left alone. -/
def noReport : UnixAddress.Report where
  family := SockaddrUn.afUnix
  path := []
  fits := Nat.zero_le _
  addrlen := 0

/- What the kernel makes of `basePtr()` and `size()`. -/
def nameOf (a : UnixAddress) : Option Name :=
  if a.mAddr.sunFamily = SockaddrUn.afUnix ∧
      a.size.toNat ≤ 110 then
    Name.ofPath (a.mAddr.sunPath.take (a.size.toNat - 2))
  else none

------------------------------------------------------------
-- System Calls
------------------------------------------------------------

abbrev Network := Post Nat Name Str

/- `EADDRINUSE` and `ECONNREFUSED`. -/
def addrInUse : Errno := ⟨98⟩

def connRefused : Errno := ⟨111⟩

def sysBind (s : Nat) (a : UnixAddress) (post : Network) :
    Sys (Unit × Network) :=
  if post.closed s then .error Errno.badFd
  else
    match nameOf a with
    | none => .error Errno.invalidArg
    | some n =>
        if post.name s ≠ none then .error Errno.invalidArg
        else if post.owner n ≠ none then .error addrInUse
        else .ok ((), post.claim s n)

def sysSendto
    (s : Nat) (data : Str) (a : UnixAddress)
    (post : Network) : Sys (UInt64 × Network) :=
  if post.closed s then .error Errno.badFd
  else
    match nameOf a with
    | none => .error Errno.invalidArg
    | some n =>
        match post.owner n with
        | none => .error Errno.noEntry
        | some r =>
            if post.closed r then .error connRefused
            else
              -- a datagram is sent as a whole
              .ok (UInt64.ofNat data.length,
                post.send s r data)

/- The sender's name is the one that it has by now. -/
def sysRecvfrom (r : Nat) (post : Network) :
    Sys (Receipt Nat Name Str × Network) :=
  if post.closed r then .error Errno.badFd
  else
    match post.box r with
    | [] => .error Errno.again
    | letter :: rest =>
        .ok (⟨letter, post.name letter.sender⟩,
          post.take r letter rest)

/-
  A system call and the check of its result. The call may
  also fail for a reason of its own, without an effect.
-/
def perform {α : Type}
    (msg : String) (fault : Option Errno)
    (call : Network → Sys (α × Network)) :
    Method Network α := do
  let post ← Command.get
  let (a, post') ←
    check msg
      (match fault with
        | some e => .error e
        | none => call post)
  Command.modify fun _ => post'
  pure a

------------------------------------------------------------
-- Socket Functions
------------------------------------------------------------

/- `Socket::bind`. -/
def bind (fault : Option Errno) (s : Nat) (a : UnixAddress) :
    Method Network Unit :=
  perform "bind()" fault (sysBind s a)

/- `Socket::sendTo`. -/
def sendTo
    (fault : Option Errno) (s : Nat) (data : Str)
    (a : UnixAddress) : Method Network UInt64 :=
  perform "sendto()" fault (sysSendto s data a)

/- What the kernel tells about the sender. -/
def senderOf (receipt : Receipt Nat Name Str) :
    UnixAddress.Report :=
  match receipt.name with
  | some n => n.report
  | none => noReport

/-
  `UnixDatagramSocket::receiveFrom` and in it
  `Socket::receiveFrom` with a buffer of `length` bytes.
-/
def receiveFrom
    (fault : Option Errno) (r : Nat) (length : Nat)
    (junk : SockaddrUn) :
    Method Network (Str × Option UnixAddress) := do
  let receipt ← perform "recvfrom()" fault (sysRecvfrom r)
  let addr ←
    (do
      UnixAddress.fillFrom .receiveFrom (senderOf receipt)
      Command.get : Method UnixAddress UnixAddress).focus
      (fun _ => UnixAddress.empty junk) (fun _ post => post)
  -- the datagram is cut off at the end of the buffer
  pure
    (receipt.letter.data.take length,
      if (senderOf receipt).addrlen ≠ 0 then some addr
      else none)

------------------------------------------------------------
-- Addresses and Names
------------------------------------------------------------

open UnixAddress in
/- The name that an address with a path stands for. -/
theorem nameOf_of_holds
    {path : Str} {abstract : Bool} {a : UnixAddress}
    (hHolds : Holds path abstract a)
    (hFamily : a.mAddr.sunFamily = SockaddrUn.afUnix) :
    nameOf a =
      Name.ofPath
        (if abstract then 0 :: path else path ++ [0]) := by
  have hSize := hHolds.toNat_size
  have hFits := hHolds.fits
  have hUsed := hHolds.used
  unfold Buffer.read at hUsed
  rw [List.drop_zero] at hUsed
  unfold nameOf
  rw [if_pos ⟨hFamily, by omega⟩, ← hUsed, hSize]
  congr 2
  omega

theorem takeWhile_nul (path : Str) :
    (path ++ [0]).takeWhile (· ≠ 0) =
      path.takeWhile (· ≠ 0) := by
  induction path with
  | nil => rfl
  | cons c path ih =>
      rw [List.cons_append, List.takeWhile_cons,
        List.takeWhile_cons, ih]

/- The kernel finds short names only. -/
theorem short_of_ofPath
    {path : Str} (hFits : path.length ≤ 107)
    {abstract : Bool} {n : Name}
    (hName :
      Name.ofPath
        (if abstract then 0 :: path else path ++ [0]) =
          some n) :
    n.Short := by
  cases abstract with
  | true =>
      cases hName
      exact hFits
  | false =>
      cases path with
      | nil =>
          cases hName
          exact Nat.zero_le _
      | cons c rest =>
          change
            (if c = 0 then some (Name.abstract (rest ++ [0]))
              else some (Name.file
                ((c :: rest ++ [0]).takeWhile (· ≠ 0)))) =
              some n at hName
          by_cases hNul : c = 0
          · rw [if_pos hNul] at hName
            cases hName
            change (rest ++ [0]).length ≤ 107
            rw [List.length_append]
            exact hFits
          · rw [if_neg hNul, takeWhile_nul] at hName
            cases hName
            refine ⟨?_, ?_, ?_⟩
            · rw [List.takeWhile_cons_of_pos (by simpa)]
              exact List.cons_ne_nil _ _
            · intro hMem
              have hNe := List.mem_takeWhile_imp hMem
              simp at hNe
            · exact
                Nat.le_trans
                  (List.takeWhile_prefix _).length_le hFits

open UnixAddress in
theorem short_of_setPath
    {path : Str} {abstract : Bool} {prior a : UnixAddress}
    (hFamily : prior.mAddr.sunFamily = SockaddrUn.afUnix)
    (hSet : setPath path abstract prior = .ok a) {n : Name}
    (hName : nameOf a = some n) :
    n.Short := by
  rcases setPath_holds hSet with ⟨hHolds, hSame⟩
  rw [nameOf_of_holds hHolds (hSame.trans hFamily)] at hName
  exact short_of_ofPath hHolds.fits hName

theorem ofPath_encoded {n : Name} (hShort : n.Short) :
    Name.ofPath n.encoded = some n := by
  cases n with
  | abstract name => rfl
  | file path =>
      rcases hShort with ⟨hNe, hNul, _⟩
      cases path with
      | nil => exact absurd rfl hNe
      | cons c rest =>
          have hHead : c ≠ 0 := by
            intro hEq
            rw [hEq] at hNul
            exact hNul List.mem_cons_self
          change
            (if c = 0 then some (Name.abstract (rest ++ [0]))
              else some (Name.file
                ((c :: rest ++ [0]).takeWhile (· ≠ 0)))) = _
          rw [if_neg hHead, takeWhile_nul,
            List.takeWhile_eq_self_iff.mpr]
          intro x hMem
          have hOther : x ≠ 0 := by
            intro hEq
            rw [hEq] at hMem
            exact hNul hMem
          simpa using hOther

theorem Name.Short.length_le {n : Name} (hShort : n.Short) :
    n.path.length ≤ 107 := by
  cases n with
  | abstract name => exact hShort
  | file path => exact hShort.2.2

theorem length_encoded (n : Name) :
    n.encoded.length = n.path.length + 1 := by
  cases n with
  | abstract name => rfl
  | file path => exact List.length_append

/- Nothing of a short name is cut off. -/
theorem Name.Short.report_path
    {n : Name} (hShort : n.Short) :
    n.report.path = n.encoded := by
  have hLe := hShort.length_le
  apply List.take_of_length_le
  rw [length_encoded]
  omega

theorem Name.Short.toNat_addrlen
    {n : Name} (hShort : n.Short) :
    n.report.addrlen.toNat = 2 + 1 + n.path.length := by
  have hLe := hShort.length_le
  change (UInt64.ofNat (2 + 1 + n.path.length)).toNat = _
  rw [UInt64.toNat_ofNat']
  omega

theorem Name.Short.addrlen_ne
    {n : Name} (hShort : n.Short) :
    n.report.addrlen ≠ 0 := by
  have hLen := hShort.toNat_addrlen
  intro hZero
  rw [hZero] at hLen
  change 0 = 2 + 1 + n.path.length at hLen
  omega

------------------------------------------------------------
-- The Address of a Sender
------------------------------------------------------------

open UnixAddress in
/-
  An address that was filled in has the size and the bytes
  of the name, so it stands for the name.
-/
theorem run_fillFrom_report
    {n : Name} (hShort : n.Short) (prior : UnixAddress) :
    ∃ a,
      (fillFrom .receiveFrom n.report).run prior =
        (.returned (), a) ∧
      nameOf a = some n := by
  have hLe := hShort.length_le
  have hPath := hShort.report_path
  have hLength := length_encoded n
  have hLen := hShort.toNat_addrlen
  have hLong : ¬ n.report.addrlen < baseSize := by
    rw [UInt64.lt_iff_toNat_lt, hLen]
    change ¬ 2 + 1 + n.path.length < 2
    omega
  have hSome := hShort.addrlen_ne
  refine
    ⟨{ mAddr := n.report.fill prior.mAddr
       mPathLen := n.report.addrlen - baseSize - 1 },
      ?_, ?_⟩
  · simp only [fillFrom, Command.run_bind,
      Command.run_modify, hSome, ne_eq, not_false_eq_true,
      if_true, update, if_neg hLong]
  · have hPathLen :
        (n.report.addrlen - baseSize - 1).toNat =
          n.path.length := by
      change
        (UInt64.ofNat (2 + 1 + n.path.length) - baseSize -
          1).toNat = _
      rw [toNat_decoded]
      omega
    have hSize :
        (size
          { mAddr := n.report.fill prior.mAddr
            mPathLen :=
              n.report.addrlen - baseSize - 1 }).toNat =
          2 + n.path.length + 1 := by
      unfold size
      rw [UInt64.toNat_add, UInt64.toNat_add, hPathLen]
      change
        ((2 + n.path.length) % 2 ^ 64 + 1) % 2 ^ 64 = _
      omega
    have hInside :
        0 + n.report.path.length ≤
          prior.mAddr.sunPath.length := by
      rw [prior.mAddr.length_sunPath, Nat.zero_add]
      exact n.report.fits
    have hRead := Buffer.read_write hInside
    unfold Buffer.read at hRead
    rw [List.drop_zero, hPath, hLength] at hRead
    unfold nameOf
    rw [if_pos ⟨rfl, by omega⟩, hSize]
    have hUsed :
        2 + n.path.length + 1 - 2 = n.path.length + 1 := by
      omega
    rw [hUsed]
    change
      Name.ofPath
        ((Buffer.write prior.mAddr.sunPath 0
          n.report.path).take (n.path.length + 1)) = _
    rw [hPath, hRead]
    exact ofPath_encoded hShort

open UnixAddress in
theorem run_fillFrom_noReport (prior : UnixAddress) :
    ∃ a,
      (fillFrom .receiveFrom noReport).run prior =
        (.returned (), a) :=
  ⟨_, rfl⟩

------------------------------------------------------------
-- What a Call Does
------------------------------------------------------------

theorem run_perform
    {α : Type} (msg : String) (fault : Option Errno)
    (call : Network → Sys (α × Network)) (post : Network) :
    (∃ ex, (perform msg fault call).run post =
      (.raised ex, post)) ∨
    ∃ a post', call post = .ok (a, post') ∧
      (perform msg fault call).run post =
        (.returned a, post') := by
  cases fault with
  | some e => exact Or.inl ⟨_, rfl⟩
  | none =>
      cases hCall : call post with
      | error e =>
          left
          simp only [perform, Command.run_bind,
            Command.run_get, hCall, run_check_error]
          exact ⟨_, rfl⟩
      | ok result =>
          right
          refine ⟨result.1, result.2, rfl, ?_⟩
          simp only [perform, Command.run_bind,
            Command.run_get, hCall, run_check_ok]
          rfl

/- A call that binds finds socket and name unused. -/
theorem sysBind_ok
    {s : Nat} {a : UnixAddress} {post post' : Network}
    (hCall : sysBind s a post = .ok ((), post')) :
    ∃ n, nameOf a = some n ∧ post.name s = none ∧
      post.owner n = none ∧ post' = post.claim s n := by
  unfold sysBind at hCall
  split at hCall
  · cases hCall
  · split at hCall
    · cases hCall
    · next n hName =>
        split at hCall
        · cases hCall
        · next hFresh =>
            split at hCall
            · cases hCall
            · next hFree =>
                cases hCall
                exact
                  ⟨n, hName, not_not.mp hFresh,
                    not_not.mp hFree, rfl⟩

theorem sysSendto_ok
    {s : Nat} {data : Str} {a : UnixAddress}
    {post post' : Network} {sent : UInt64}
    (hCall : sysSendto s data a post = .ok (sent, post')) :
    ∃ r, post' = post.send s r data := by
  unfold sysSendto at hCall
  split at hCall
  · cases hCall
  · split at hCall
    · cases hCall
    · split at hCall
      · cases hCall
      · next r hOwner =>
          split at hCall
          · cases hCall
          · cases hCall
            exact ⟨r, rfl⟩

theorem sysRecvfrom_ok
    {r : Nat} {post post' : Network}
    {receipt : Receipt Nat Name Str}
    (hCall : sysRecvfrom r post = .ok (receipt, post')) :
    ∃ letter rest, post.closed r = false ∧
      post.box r = letter :: rest ∧
      receipt = ⟨letter, post.name letter.sender⟩ ∧
      post' = post.take r letter rest := by
  unfold sysRecvfrom at hCall
  split at hCall
  · cases hCall
  · next hOpen =>
      split at hCall
      · cases hCall
      · next letter rest hBox =>
          cases hCall
          exact
            ⟨letter, rest, Bool.eq_false_of_not_eq_true hOpen,
              hBox, rfl, rfl⟩

/-
  What a call that returns delivers: the data as far as there
  is room, and an address iff the sender has a name by now.
-/
theorem run_receiveFrom
    (fault : Option Errno) (r length : Nat)
    (junk : SockaddrUn) (post : Network)
    (hShort : ∀ s n, post.name s = some n → n.Short) :
    (∃ ex, (receiveFrom fault r length junk).run post =
      (.raised ex, post)) ∨
    ∃ letter rest addr, post.closed r = false ∧
      post.box r = letter :: rest ∧
      (receiveFrom fault r length junk).run post =
        (.returned (letter.data.take length, addr),
          post.take r letter rest) ∧
      addr.map nameOf =
        (post.name letter.sender).map some := by
  rcases
    run_perform "recvfrom()" fault (sysRecvfrom r) post with
    ⟨ex, hRun⟩ | ⟨receipt, post', hCall, hRun⟩
  · left
    unfold receiveFrom
    exact ⟨ex, Command.run_bind_raised hRun _⟩
  · right
    rcases sysRecvfrom_ok hCall with
      ⟨letter, rest, hOpen, hBox, rfl, rfl⟩
    cases hName : post.name letter.sender with
    | none =>
        rcases run_fillFrom_noReport
          (UnixAddress.empty junk) with ⟨a, hFill⟩
        refine ⟨letter, rest, none, hOpen, hBox, ?_, ?_⟩
        · unfold receiveFrom
          rw [Command.run_bind_returned hRun]
          simp only [senderOf, hName, Command.run_bind,
            Command.run_focus, hFill]
          rfl
        · rw [hName]
          rfl
    | some n =>
        have hFound := hShort letter.sender n hName
        rcases run_fillFrom_report hFound
          (UnixAddress.empty junk) with ⟨a, hFill, hNameOf⟩
        have hSome := hFound.addrlen_ne
        refine ⟨letter, rest, some a, hOpen, hBox, ?_, ?_⟩
        · unfold receiveFrom
          rw [Command.run_bind_returned hRun]
          simp only [senderOf, hName, Command.run_bind,
            Command.run_focus, hFill, Command.run_get,
            Command.run_pure, ne_eq, hSome,
            not_false_eq_true, if_true]
        · rw [hName, Option.map_some, hNameOf]
          rfl

------------------------------------------------------------
-- Sockets in Any Order
------------------------------------------------------------

/- What a call of `receiveFrom` returned. -/
structure Delivery where
  length : Nat
  data : Str
  addr : Option UnixAddress

structure World where
  post : Network
  received : Nat → List Delivery

inductive Op where
| bind (s : Nat) (a : UnixAddress) (fault : Option Errno)
| sendTo
    (s : Nat) (data : Str) (a : UnixAddress)
    (fault : Option Errno)
| receiveFrom
    (r length : Nat) (junk : SockaddrUn)
    (fault : Option Errno)
| close (s : Nat)

/- An address from `setPath`, or one that was received. -/
def Obtained (w : World) (a : UnixAddress) : Prop :=
  (∃ path abstract prior,
    prior.mAddr.sunFamily = SockaddrUn.afUnix ∧
      UnixAddress.setPath path abstract prior = .ok a) ∨
  ∃ r d, d ∈ w.received r ∧ d.addr = some a

def step (w : World) : Op → World
| .bind s a fault =>
    { w with post := ((bind fault s a).run w.post).2 }
| .sendTo s data a fault =>
    { w with post := ((sendTo fault s data a).run w.post).2 }
| .receiveFrom r length junk fault =>
    match (receiveFrom fault r length junk).run w.post with
    | (.returned (data, addr), post) =>
        { post := post
          received :=
            Function.update w.received r
              (w.received r ++ [⟨length, data, addr⟩]) }
    | (_, post) => { w with post := post }
| .close s =>
    { w with post := w.post.close Name.freed s }

def machine : Machine World Op where
  legal w op :=
    match op with
    | .bind _ a _ => Obtained w a
    | .sendTo _ _ a _ => Obtained w a
    | _ => True
  step := step

/- Sockets without names, and no mail. -/
def start : World where
  post := Post.empty
  received _ := []

/-
  A call that returns delivers the next letter, with the name
  that its sender has when it is received. A call that fails,
  and all other calls, deliver nothing.
-/
def Reports (w : World) (op : Op) (w' : World) : Prop :=
  w'.received = w.received ∨
    ∃ r length junk fault letter rest addr,
      op = .receiveFrom r length junk fault ∧
        w.post.box r = letter :: rest ∧
        w'.received =
          Function.update w.received r
            (w.received r ++
              [⟨length, letter.data.take length, addr⟩]) ∧
        addr.map nameOf =
          (w.post.name letter.sender).map some

/- A call delivered the letter, with its sender's name. -/
def Delivers
    (receipt : Receipt Nat Name Str) (d : Delivery) : Prop :=
  d.data = receipt.letter.data.take d.length ∧
    d.addr.map nameOf = receipt.name.map some

/-
  Every socket received the datagrams that were sent to its
  name, in order and each once.
-/
structure Faithful (w : World) : Prop where
  sound : Sound w.post
  delivered :
    ∀ r, List.Forall₂ Delivers
      (w.post.taken r) (w.received r)
  short : ∀ s n, w.post.name s = some n → n.Short

namespace Faithful

theorem start : Faithful start where
  sound := .empty
  delivered _ := .nil
  short _ _ hName := nomatch hName

variable {w : World} (hFaithful : Faithful w)

include hFaithful

/- The names that came with letters are short. -/
theorem short_of_taken
    {r : Nat} {receipt : Receipt Nat Name Str}
    (hTaken : receipt ∈ w.post.taken r) {n : Name}
    (hName : receipt.name = some n) :
    n.Short :=
  hFaithful.short receipt.letter.sender n
    (hFaithful.sound.receipts r receipt hTaken n hName)

theorem exists_receipt
    {r : Nat} {d : Delivery} (hMem : d ∈ w.received r) :
    ∃ receipt, receipt ∈ w.post.taken r ∧
      Delivers receipt d := by
  have hAll := (hFaithful.delivered r).flip
  rcases List.forall₂_iff_get.mp hAll with ⟨hLength, hGet⟩
  rcases List.mem_iff_get.mp hMem with ⟨i, hEq⟩
  have hLt : i.val < (w.post.taken r).length := by
    rw [← hLength]
    exact i.isLt
  refine ⟨(w.post.taken r).get ⟨i, hLt⟩, List.get_mem _ _, ?_⟩
  rw [← hEq]
  exact hGet i.val i.isLt hLt

/- Addresses that a program obtains name short names. -/
theorem short_of_obtained
    {a : UnixAddress} (hObtained : Obtained w a) {n : Name}
    (hName : nameOf a = some n) :
    n.Short := by
  rcases hObtained with
    ⟨path, abstract, prior, hFamily, hSet⟩ |
    ⟨r, d, hMem, hAddr⟩
  · exact short_of_setPath hFamily hSet hName
  · rcases hFaithful.exists_receipt hMem with
      ⟨receipt, hTaken, _, hSame⟩
    rw [hAddr, Option.map_some, hName] at hSame
    rcases Option.map_eq_some_iff.mp hSame.symm with
      ⟨m, hReceipt, hEq⟩
    cases hEq
    exact hFaithful.short_of_taken hTaken hReceipt

theorem step_bind
    {s : Nat} {a : UnixAddress} (fault : Option Errno)
    (hObtained : Obtained w a) :
    Faithful (step w (.bind s a fault)) ∧
      Reports w (.bind s a fault)
        (step w (.bind s a fault)) := by
  refine ⟨?_, Or.inl rfl⟩
  unfold step bind
  rcases run_perform "bind()" fault (sysBind s a) w.post with
    ⟨ex, hRun⟩ | ⟨_, post', hCall, hRun⟩
  · simp only [hRun]
    exact hFaithful
  · simp only [hRun]
    rcases sysBind_ok hCall with
      ⟨n, hName, hFresh, hFree, hPost⟩
    subst hPost
    refine
      ⟨hFaithful.sound.claim hFresh hFree,
        hFaithful.delivered, ?_⟩
    intro s' m hOther
    unfold Post.claim at hOther
    by_cases hSame : s' = s
    · subst hSame
      simp only [Function.update_self] at hOther
      cases hOther
      exact hFaithful.short_of_obtained hObtained hName
    · simp only [Function.update_of_ne hSame] at hOther
      exact hFaithful.short s' m hOther

theorem step_sendTo
    (s : Nat) (data : Str) (a : UnixAddress)
    (fault : Option Errno) :
    Faithful (step w (.sendTo s data a fault)) ∧
      Reports w (.sendTo s data a fault)
        (step w (.sendTo s data a fault)) := by
  refine ⟨?_, Or.inl rfl⟩
  unfold step sendTo
  rcases
    run_perform "sendto()" fault (sysSendto s data a)
      w.post with
    ⟨ex, hRun⟩ | ⟨_, post', hCall, hRun⟩
  · simp only [hRun]
    exact hFaithful
  · simp only [hRun]
    rcases sysSendto_ok hCall with ⟨r, hPost⟩
    subst hPost
    exact
      ⟨hFaithful.sound.send data, hFaithful.delivered,
        hFaithful.short⟩

theorem step_receiveFrom
    (r length : Nat) (junk : SockaddrUn)
    (fault : Option Errno) :
    Faithful (step w (.receiveFrom r length junk fault)) ∧
      Reports w (.receiveFrom r length junk fault)
        (step w (.receiveFrom r length junk fault)) := by
  unfold step
  rcases
    run_receiveFrom fault r length junk w.post
      hFaithful.short with
    ⟨ex, hRun⟩ |
    ⟨letter, rest, addr, hOpen, hBox, hRun, hSame⟩
  · simp only [hRun]
    exact ⟨hFaithful, Or.inl rfl⟩
  · simp only [hRun]
    refine
      ⟨⟨hFaithful.sound.take hOpen hBox, ?_,
          hFaithful.short⟩,
        Or.inr
          ⟨r, length, junk, fault, letter, rest, addr, rfl,
            hBox, rfl, hSame⟩⟩
    intro r'
    have hOld := hFaithful.delivered r'
    unfold Post.take
    by_cases hHere : r' = r
    · subst hHere
      simp only [Function.update_self]
      exact
        List.rel_append hOld (.cons ⟨rfl, hSame⟩ .nil)
    · simp only [Function.update_of_ne hHere]
      exact hOld

theorem step
    {op : Op} (hLegal : machine.legal w op) :
    Faithful (step w op) ∧ Reports w op (step w op) := by
  cases op with
  | bind s a fault =>
      exact hFaithful.step_bind fault hLegal
  | sendTo s data a fault =>
      exact hFaithful.step_sendTo s data a fault
  | receiveFrom r length junk fault =>
      exact hFaithful.step_receiveFrom r length junk fault
  | close s =>
      exact
        ⟨⟨hFaithful.sound.close Name.freed s,
            hFaithful.delivered, hFaithful.short⟩,
          Or.inl rfl⟩

end Faithful

------------------------------------------------------------
-- Answers
------------------------------------------------------------

/-
  What is sent to an address that came with a datagram gets
  to the socket that sent the datagram, while it is open.
-/
def Answerable (w : World) : Prop :=
  ∀ r receipt d a,
    (receipt, d) ∈ (w.post.taken r).zip (w.received r) →
    d.addr = some a →
    w.post.closed receipt.letter.sender = false →
    ∀ s data, w.post.closed s = false →
      (sendTo none s data a).run w.post =
        (.returned (UInt64.ofNat data.length),
          w.post.send s receipt.letter.sender data)

theorem Faithful.answerable
    {w : World} (hFaithful : Faithful w) :
    Answerable w := by
  intro r receipt d a hPair hAddr hSender s data hOpen
  have hSame :=
    (List.forall₂_zip (hFaithful.delivered r) hPair).2
  rw [hAddr, Option.map_some] at hSame
  rcases Option.map_eq_some_iff.mp hSame.symm with
    ⟨n, hReceipt, hName⟩
  have hOwner :=
    hFaithful.sound.owner_of_taken
      (List.of_mem_zip hPair).1 hReceipt hSender
  have hCall :
      sysSendto s data a w.post =
        .ok (UInt64.ofNat data.length,
          w.post.send s receipt.letter.sender data) := by
    unfold sysSendto
    rw [if_neg (by rw [hOpen]; exact nofun), ← hName]
    simp only [hOwner]
    rw [if_neg (by rw [hSender]; exact nofun)]
  simp only [sendTo, perform, Command.run_bind,
    Command.run_get, hCall, run_check_ok]
  rfl

/-
  Whatever sockets bind, send, receive and close in any
  order, with calls that fail and buffers that are too
  small: datagrams are neither lost, repeated nor reordered
  on the way to an open socket, each comes with the address
  that its sender has when it is received, and they can be
  answered.
-/
theorem replies_arrive
    {ops : List Op} (hLegal : machine.Legal start ops) :
    Faithful (machine.run start ops) ∧
      machine.Along Reports start ops ∧
      Answerable (machine.run start ops) := by
  have hFaithful : Faithful (machine.run start ops) := by
    apply
      Machine.run_of_invariant Faithful (fun _ => True) ?_
        ops start .start hLegal (fun _ _ => trivial)
    intro w op hFaithful hStep _
    exact (hFaithful.step hStep).1
  have hReports : machine.Along Reports start ops :=
    Machine.along_of_step Faithful
      (fun _ _ hFaithful hStep => hFaithful.step hStep) ops
      start .start hLegal
  exact ⟨hFaithful, hReports, hFaithful.answerable⟩

/- `UnixAddress{path, abstract}` over zero bytes. -/
def address (path : Str) (abstract : Bool) : UnixAddress :=
  let prior := UnixAddress.empty UnixAddress.zeroAddr
  match UnixAddress.setPath path abstract prior with
  | .ok a => a
  | .error _ => prior

/-
  A datagram to a socket with a name of one character, from a
  socket that has a name only when the datagram is received.
-/
def greeting : List Op :=
  [.bind 0 (address (str "a") true) none,
    .sendTo 1 (str "hello") (address (str "a") true) none,
    .bind 1 (address (str "/x") false) none,
    .receiveFrom 0 4 UnixAddress.zeroAddr none]

theorem legal_greeting : machine.Legal start greeting := by
  refine
    ⟨Or.inl ⟨str "a", true, _, rfl, rfl⟩,
      Or.inl ⟨str "a", true, _, rfl, rfl⟩,
      Or.inl ⟨str "/x", false, _, rfl, rfl⟩, trivial,
      trivial⟩

theorem replies_arrive_greeting :
    Faithful (machine.run start greeting) ∧
      machine.Along Reports start greeting ∧
      Answerable (machine.run start greeting) :=
  replies_arrive legal_greeting

example :
    ((machine.run start greeting).received 0).map
        (fun d => (d.data, d.addr.map nameOf)) =
      [(str "hell", some (some (.file (str "/x"))))] := by
  decide

end Datagrams

end Cosmos
