import LibCosmos.Core.Types
import LibCosmos.Foundation.Buffer

/-
  UNIX domain socket addresses
  (`include/net/unix/UnixAddress.hxx`,
  `src/net/unix/UnixAddress.cxx`) and how the socket calls
  fill them in (`src/net/Socket.cxx`).

  Main declarations:
    * `SockaddrUn`, `UnixAddress`
    * `UnixAddress.setPath`, `UnixAddress.getPath`,
      `UnixAddress.label`
    * `UnixAddress.update`, `UnixAddress.ofRaw`,
      `UnixAddress.fillFrom`
    * `UnixAddress.setPath_round_trip_iff`
    * `UnixAddress.decodes_kernel_address_iff`
-/

namespace Cosmos

------------------------------------------------------------
-- The Kernel's Structure
------------------------------------------------------------

/- `struct sockaddr_un` on Linux. -/
@[ext] structure SockaddrUn where
  sunFamily : UInt16
  sunPath : List Byte
  length_sunPath : sunPath.length = 108

namespace SockaddrUn

/- `AF_UNIX`. -/
def afUnix : UInt16 := 1

/- Copy bytes into `sun_path`, inside its bounds. -/
def store
    (addr : SockaddrUn)
    (pos : Nat) (src : List Byte)
    (hFits : pos + src.length ≤ 108) : SockaddrUn where
  sunFamily := addr.sunFamily
  sunPath := Buffer.write addr.sunPath pos src
  length_sunPath := by
    rw [Buffer.length_write, addr.length_sunPath]
    rw [addr.length_sunPath]
    exact hFits

/- The view of a range of `sun_path`, if it is inside. -/
def view (addr : SockaddrUn) (pos n : Nat) : Option Str :=
  if pos + n ≤ 108 then some (Buffer.read addr.sunPath pos n)
  else none

/- The character `sun_path[0]`. -/
def first (addr : SockaddrUn) : Byte :=
  addr.sunPath.headD 0

/- The bytes of the structure in memory. -/
def bytes (addr : SockaddrUn) : List Byte :=
  Buffer.leBytes 2 addr.sunFamily.toNat ++ addr.sunPath

theorem first_eq (addr : SockaddrUn) :
    [addr.first] = Buffer.read addr.sunPath 0 1 := by
  have hLength := addr.length_sunPath
  unfold first Buffer.read
  cases hPath : addr.sunPath with
  | nil =>
      rw [hPath] at hLength
      cases hLength
  | cons c rest => rfl

end SockaddrUn

------------------------------------------------------------
-- The Address Class
------------------------------------------------------------

structure UnixAddress where
  mAddr : SockaddrUn
  mPathLen : UInt64

namespace UnixAddress

/- `offsetof(struct sockaddr_un, sun_path)`. -/
def baseSize : UInt64 := 2

def maxSize : UInt64 := 110

def maxPathLen : UInt64 := maxSize - baseSize - 1

/- `UnixAddress::size`. -/
def size (a : UnixAddress) : UInt64 :=
  baseSize + a.mPathLen + 1

/- `UnixAddress::isAbstract`. -/
def isAbstract (a : UnixAddress) : Bool :=
  a.mPathLen > 1 && a.mAddr.first == 0

/- `UnixAddress::isUnnamed`. -/
def isUnnamed (a : UnixAddress) : Bool :=
  a.mPathLen == 0

/-
  `UnixAddress::getPath`. The view may leave the structure,
  then there is no meaningful result.
-/
def getPath (a : UnixAddress) : Option Str :=
  if a.isAbstract then a.mAddr.view 1 a.mPathLen.toNat
  else a.mAddr.view 0 a.mPathLen.toNat

/- `UnixAddress::setPath`. -/
def setPath
    (path : Str) (abstract : Bool) (a : UnixAddress) :
    Except Exn UnixAddress :=
  if hLong : path.length > maxPathLen.toNat then
    .error (.runtimeError (str "UNIX address path too long"))
  else
    have hFits : path.length ≤ 107 := Nat.le_of_not_lt hLong
    let addr :=
      if abstract then
        (a.mAddr.store 0 [0] (by decide)).store 1 path
          (by omega)
      else
        (a.mAddr.store 0 path (by omega)).store path.length
          [0] (by
            rw [List.length_singleton]
            omega)
    .ok
      { mAddr := addr
        mPathLen := UInt64.ofNat path.length }

/-
  The loop of `label` that drops trailing NUL characters,
  on the reversed string. `back()` of an empty string is
  undefined.
-/
def popNuls : Str → Option Str
| [] => none
| c :: rest => if c = 0 then popNuls rest else some (c :: rest)

/- `UnixAddress::label`; `isprint` is the locale's. -/
def label (isprint : Byte → Bool) (a : UnixAddress) :
    Option Str :=
  if a.isUnnamed then some (str "<unnamed>")
  else do
    let path ← a.getPath
    let ret := if a.isAbstract then str "@" ++ path else path
    let ret ← popNuls ret.reverse
    some (ret.reverse.map fun c =>
      if isprint c then c else 63)

/- `UnixAddress::update`. -/
def update (newLength : UInt64) :
    Method UnixAddress Unit :=
  if newLength < baseSize then do
    Command.modify fun a =>
      { mAddr :=
          { a.mAddr with sunFamily := SockaddrUn.afUnix }
        mPathLen := 0 }
    Command.raise
      (.runtimeError (str "short address on update"))
  else
    -- the NUL is not counted
    Command.modify fun a =>
      { a with mPathLen := newLength - baseSize - 1 }

/- `UnixAddress::UnixAddress(const sockaddr_un&, size_t)`. -/
def ofRaw (raw : SockaddrUn) (len : UInt64) : UnixAddress :=
  if len ≥ baseSize then
    let a : UnixAddress :=
      { mAddr := raw, mPathLen := len - baseSize }
    if a.isAbstract then
      { a with mPathLen := a.mPathLen - 1 }
    else a
  else { mAddr := raw, mPathLen := 0 }

/-
  `UnixAddress::operator==`. Comparing memory outside of the
  structures has no meaningful result.
-/
def equal (a b : UnixAddress) : Option Bool :=
  if a.mPathLen ≠ b.mPathLen then some false
  else if a.mAddr.sunFamily ≠ b.mAddr.sunFamily then
    some false
  else do
    let n := (a.mPathLen + 1).toNat
    let left ← a.mAddr.view 0 n
    let right ← b.mAddr.view 0 n
    some (left == right)

/-
  `SocketAddress::clear`, which knows nothing of the path
  length.
-/
def clear (a : UnixAddress) : UnixAddress :=
  { a with
    mAddr :=
      { sunFamily := SockaddrUn.afUnix
        sunPath := List.replicate 108 0
        length_sunPath := by simp } }

/- `UnixAddress::UnixAddress()`; the rest is not set. -/
def empty (junk : SockaddrUn) : UnixAddress where
  mAddr :=
    { junk with sunFamily := SockaddrUn.afUnix }.store 0 [0]
      (by decide)
  mPathLen := 0

------------------------------------------------------------
-- Round Trip of a Path
------------------------------------------------------------

/- What the kernel takes a path address for. -/
def encoding (path : Str) (abstract : Bool) : List Byte :=
  Buffer.leBytes 2 SockaddrUn.afUnix.toNat ++
    if abstract then 0 :: path else path ++ [0]

/- A path with the characters replaced as in a label. -/
def shown
    (isprint : Byte → Bool) (path : Str) (abstract : Bool) :
    Str :=
  let path := path.map fun c => if isprint c then c else 63
  if abstract then str "@" ++ path else path

/- The address stands for the path in every respect. -/
structure RoundTrip
    (isprint : Byte → Bool) (path : Str) (abstract : Bool)
    (a : UnixAddress) : Prop where
  getPath : a.getPath = some path
  isAbstract : a.isAbstract = abstract
  isUnnamed : a.isUnnamed = false
  size : a.size.toNat = 2 + path.length + 1
  encoded :
    a.mAddr.bytes.take a.size.toNat =
      encoding path abstract
  label : a.label isprint = some (shown isprint path abstract)

/- The used part of the structure holds the path. -/
structure Holds
    (path : Str) (abstract : Bool) (a : UnixAddress) :
    Prop where
  fits : path.length ≤ 107
  len : a.mPathLen = UInt64.ofNat path.length
  used :
    Buffer.read a.mAddr.sunPath 0 (path.length + 1) =
      if abstract then 0 :: path else path ++ [0]

/- What `setPath` leaves in the used part. -/
theorem setPath_holds
    {path : Str} {abstract : Bool} {a a' : UnixAddress}
    (hSet : setPath path abstract a = .ok a') :
    Holds path abstract a' ∧
      a'.mAddr.sunFamily = a.mAddr.sunFamily := by
  unfold setPath at hSet
  split at hSet
  · cases hSet
  · next hLong =>
      have hLe : path.length ≤ 107 := Nat.le_of_not_lt hLong
      have hLength := a.mAddr.length_sunPath
      cases hSet
      refine ⟨⟨hLe, rfl, ?_⟩, ?_⟩
      · cases abstract with
        | true =>
            have hFirst :
                0 + [(0 : Byte)].length ≤
                  a.mAddr.sunPath.length := by
              rw [hLength]
              decide
            have hSecond :
                1 + path.length ≤
                  (Buffer.write a.mAddr.sunPath 0
                    [0]).length := by
              rw [Buffer.length_write hFirst, hLength]
              omega
            simp only [if_true, SockaddrUn.store]
            rw [Nat.add_comm, ← Buffer.read_append_read,
              Buffer.read_write_before hSecond (by omega)]
            have hNul := Buffer.read_write hFirst
            rw [List.length_singleton] at hNul
            rw [hNul, Nat.zero_add,
              Buffer.read_write hSecond]
            rfl
        | false =>
            have hFirst :
                0 + path.length ≤
                  a.mAddr.sunPath.length := by
              rw [hLength]
              omega
            have hSecond :
                path.length + [(0 : Byte)].length ≤
                  (Buffer.write a.mAddr.sunPath 0
                    path).length := by
              rw [Buffer.length_write hFirst, hLength,
                List.length_singleton]
              omega
            simp only [Bool.false_eq_true, if_false,
              SockaddrUn.store]
            rw [← Buffer.read_append_read,
              Buffer.read_write_before hSecond (by omega),
              Buffer.read_write hFirst, Nat.zero_add]
            have hNul := Buffer.read_write hSecond
            rw [List.length_singleton] at hNul
            rw [hNul]
      · cases abstract <;> rfl

theorem setPath_ok
    {path : Str} (hLe : path.length ≤ 107)
    (abstract : Bool) (a : UnixAddress) :
    ∃ a', setPath path abstract a = .ok a' := by
  have hFits : ¬ path.length > maxPathLen.toNat :=
    Nat.not_lt_of_le hLe
  unfold setPath
  rw [dif_neg hFits]
  exact ⟨_, rfl⟩

theorem Holds.toNat_len
    {path : Str} {abstract : Bool} {a : UnixAddress}
    (hHolds : Holds path abstract a) :
    a.mPathLen.toNat = path.length := by
  have hLe := hHolds.fits
  rw [hHolds.len, UInt64.toNat_ofNat']
  omega

theorem Holds.toNat_size
    {path : Str} {abstract : Bool} {a : UnixAddress}
    (hHolds : Holds path abstract a) :
    a.size.toNat = 2 + path.length + 1 := by
  have hLe := hHolds.fits
  unfold size
  rw [UInt64.toNat_add, UInt64.toNat_add, hHolds.toNat_len]
  change ((2 + path.length) % 2 ^ 64 + 1) % 2 ^ 64 = _
  omega

/- Only the empty path is no name. -/
theorem Holds.isUnnamed_eq
    {path : Str} {abstract : Bool} {a : UnixAddress}
    (hHolds : Holds path abstract a) (hNe : path ≠ []) :
    a.isUnnamed = false := by
  have hPos := List.length_pos_iff.mpr hNe
  have hLen := hHolds.toNat_len
  unfold isUnnamed
  rw [beq_eq_false_iff_ne]
  intro hZero
  rw [hZero, UInt64.toNat_zero] at hLen
  omega

/- The first byte tells the flavours apart. -/
theorem Holds.first_eq
    {path : Str} {abstract : Bool} {a : UnixAddress}
    (hHolds : Holds path abstract a) :
    [a.mAddr.first] =
      (if abstract then 0 :: path
        else path ++ [0]).take 1 := by
  rw [SockaddrUn.first_eq, ← hHolds.used,
    Buffer.take_read _ _ (by omega)]

/- The flag that is read off length and first byte. -/
theorem Holds.isAbstract_eq
    {path : Str} {abstract : Bool} {a : UnixAddress}
    (hHolds : Holds path abstract a)
    (hHead : abstract = false → path.head? ≠ some 0)
    (hNe : path ≠ []) :
    a.isAbstract = (abstract && decide (1 < path.length)) := by
  have hLong : (a.mPathLen > 1) ↔ 1 < path.length := by
    rw [gt_iff_lt, UInt64.lt_iff_toNat_lt, hHolds.toNat_len]
    rfl
  have hFirst := hHolds.first_eq
  unfold isAbstract
  cases abstract with
  | true =>
      have hZero : a.mAddr.first = 0 := by
        simpa using hFirst
      simp [hZero, hLong]
  | false =>
      have hOther : a.mAddr.first ≠ 0 := by
        cases path with
        | nil => exact absurd rfl hNe
        | cons c rest =>
            have hSame : a.mAddr.first = c := by
              simpa using hFirst
            rw [hSame]
            rintro rfl
            exact hHead rfl rfl
      simp [hOther]

/- The path is found again when the flag is right. -/
theorem Holds.getPath_eq
    {path : Str} {abstract : Bool} {a : UnixAddress}
    (hHolds : Holds path abstract a)
    (hFlag : a.isAbstract = abstract) :
    a.getPath = some path := by
  have hLe := hHolds.fits
  have hUsed := hHolds.used
  unfold getPath SockaddrUn.view
  rw [hFlag, hHolds.toNat_len]
  cases abstract with
  | true =>
      have hTail :=
        Buffer.drop_read a.mAddr.sunPath 0 1 path.length
      rw [Nat.add_comm 1, hUsed] at hTail
      simp only [if_true]
      rw [if_pos (by omega), ← hTail]
      rfl
  | false =>
      have hStart :=
        Buffer.take_read a.mAddr.sunPath 0
          (by omega : path.length ≤ path.length + 1)
      rw [hUsed] at hStart
      simp only [Bool.false_eq_true, if_false]
      rw [if_pos (by omega), ← hStart]
      simp

/- Two addresses that hold the same compare equal. -/
theorem Holds.equal_eq
    {path : Str} {abstract : Bool} {a b : UnixAddress}
    (hHolds : Holds path abstract a)
    (hHolds' : Holds path abstract b)
    (hFamily : a.mAddr.sunFamily = b.mAddr.sunFamily) :
    a.equal b = some true := by
  have hLe := hHolds.fits
  have hCount : (b.mPathLen + 1).toNat = path.length + 1 := by
    rw [UInt64.toNat_add, hHolds'.toNat_len]
    change (path.length + 1) % 2 ^ 64 = path.length + 1
    omega
  have hLen : a.mPathLen = b.mPathLen :=
    hHolds.len.trans hHolds'.len.symm
  have hInside : 0 + (path.length + 1) ≤ 108 := by omega
  unfold equal SockaddrUn.view
  simp only [hCount, hLen, hFamily, hInside, hHolds.used,
    hHolds'.used, ne_eq, not_true_eq_false, if_false,
    if_true]
  simp

/- A string without NUL keeps its end. -/
theorem popNuls_reverse
    {ret : Str} (hNe : ret ≠ []) (hNul : 0 ∉ ret) :
    popNuls ret.reverse = some ret.reverse := by
  cases hReverse : ret.reverse with
  | nil =>
      exact absurd (List.reverse_eq_nil_iff.mp hReverse) hNe
  | cons c rest =>
      have hc : c ≠ 0 := by
        rintro rfl
        apply hNul
        rw [← List.mem_reverse, hReverse]
        exact List.mem_cons_self
      unfold popNuls
      rw [if_neg hc]

/- A path without NUL is shown with all its characters. -/
theorem Holds.label_eq
    {path : Str} {abstract : Bool} {a : UnixAddress}
    (hHolds : Holds path abstract a) (hNe : path ≠ [])
    (hNul : 0 ∉ path) (hFlag : a.isAbstract = abstract)
    {isprint : Byte → Bool} (hAt : isprint 64 = true) :
    a.label isprint = some (shown isprint path abstract) := by
  have hRet : ∀ ret : Str, ret ≠ [] → 0 ∉ ret →
      (popNuls ret.reverse).bind (fun r =>
        some (r.reverse.map fun c =>
          if isprint c then c else 63)) =
      some (ret.map fun c =>
        if isprint c then c else 63) := by
    intro ret hRetNe hRetNul
    rw [popNuls_reverse hRetNe hRetNul,
      Option.bind_some, List.reverse_reverse]
  have hAtSign : str "@" = [64] := rfl
  unfold label shown
  rw [hHolds.isUnnamed_eq hNe, hHolds.getPath_eq hFlag,
    hFlag]
  cases abstract with
  | true =>
      have hShown :=
        hRet (64 :: path) (by simp) (by simpa using hNul)
      simpa [hAtSign, hAt] using hShown
  | false =>
      have hShown := hRet path hNe hNul
      simpa using hShown

/- The first bytes of the structure. -/
theorem take_bytes (addr : SockaddrUn) (n : Nat) :
    addr.bytes.take (2 + n) =
      Buffer.leBytes 2 addr.sunFamily.toNat ++
        Buffer.read addr.sunPath 0 n := by
  unfold SockaddrUn.bytes Buffer.read
  rw [List.take_append, Buffer.length_leBytes,
    List.take_of_length_le, Nat.add_sub_cancel_left,
    List.drop_zero]
  rw [Buffer.length_leBytes]
  omega

/- The family can be told from its bytes. -/
theorem family_of_leBytes
    {f g : UInt16}
    (hBytes :
      Buffer.leBytes 2 f.toNat = Buffer.leBytes 2 g.toNat) :
    f = g := by
  apply UInt16.toNat_inj.mp
  have hValue := congrArg Buffer.leValue hBytes
  rw [Buffer.leValue_leBytes_of_lt f.toNat_lt,
    Buffer.leValue_leBytes_of_lt g.toNat_lt] at hValue
  exact hValue

/-
  `setPath` on an address in any state is undone by the
  observers and gives the kernel's encoding, unless the path
  is abstract and a single character, which `isAbstract`
  takes for path based, or the structure held an address of
  another family, which `setPath` keeps.
-/
theorem setPath_round_trip_iff
    (isprint : Byte → Bool)
    (hAt : isprint 64 = true)
    (a : UnixAddress) (path : Str) (abstract : Bool)
    (hNe : path ≠ [])
    (hFits : path.length ≤ maxPathLen.toNat)
    (hNul : 0 ∉ path) :
    ∃ a', setPath path abstract a = .ok a' ∧
      (RoundTrip isprint path abstract a' ↔
        a.mAddr.sunFamily = SockaddrUn.afUnix ∧
          ¬ (abstract = true ∧ path.length = 1)) := by
  rcases setPath_ok hFits abstract a with ⟨a', hSet⟩
  refine ⟨a', hSet, ?_⟩
  rcases setPath_holds hSet with ⟨hHolds, hFamily⟩
  have hAbstract :=
    hHolds.isAbstract_eq
      (fun _ hZero => hNul (List.mem_of_head? hZero)) hNe
  have hPos : 0 < path.length := List.length_pos_iff.mpr hNe
  have hSize := hHolds.toNat_size
  have hBytes := take_bytes a'.mAddr (path.length + 1)
  rw [hHolds.used, hFamily, ← Nat.add_assoc] at hBytes
  constructor
  · intro hRound
    constructor
    · have hEncoded := hRound.encoded
      rw [hSize, hBytes] at hEncoded
      unfold encoding at hEncoded
      exact
        family_of_leBytes (List.append_cancel_right hEncoded)
    · rintro ⟨rfl, hOne⟩
      have hFlag := hRound.isAbstract
      rw [hAbstract, hOne] at hFlag
      exact absurd hFlag (by decide)
  · rintro ⟨hUnix, hShort⟩
    have hFlag : a'.isAbstract = abstract := by
      rw [hAbstract]
      cases abstract with
      | false => rfl
      | true =>
          have hLong : 1 < path.length := by
            by_contra hNot
            exact hShort ⟨rfl, by omega⟩
          simp [hLong]
    exact
      { getPath := hHolds.getPath_eq hFlag
        isAbstract := hFlag
        isUnnamed := hHolds.isUnnamed_eq hNe
        size := hSize
        encoded := by
          rw [hSize, hBytes, hUnix]
          rfl
        label := hHolds.label_eq hNe hNul hFlag hAt }

/- `std::isprint` of the C locale. -/
def isprintC (c : Byte) : Bool :=
  32 ≤ c && c < 127

/- A structure of zero bytes. -/
def zeroAddr : SockaddrUn where
  sunFamily := SockaddrUn.afUnix
  sunPath := List.replicate 108 0
  length_sunPath := by simp

/- Setting "/run/x" on a new address. -/
theorem setPath_round_trip_run :
    ∃ a', setPath (str "/run/x") false (empty zeroAddr) =
        .ok a' ∧
      RoundTrip isprintC (str "/run/x") false a' := by
  rcases setPath_round_trip_iff isprintC (by decide)
      (empty zeroAddr) (str "/run/x") false (by decide)
      (by decide) (by decide) with
    ⟨a', hSet, hRound⟩
  refine ⟨a', hSet, hRound.mpr ⟨rfl, ?_⟩⟩
  exact fun hBoth => absurd hBoth.1 (by decide)

/-
  The abstract path "a": it is taken for a path based
  address, the path read back is a NUL character, and the
  label runs past the start of an empty string.
-/
theorem setPath_single_abstract :
    ∃ a', setPath (str "a") true (empty zeroAddr) = .ok a' ∧
      a'.isAbstract = false ∧
      a'.getPath = some [0] ∧
      a'.label isprintC = none ∧
      ¬ RoundTrip isprintC (str "a") true a' := by
  refine ⟨_, rfl, by decide, by decide, by decide, ?_⟩
  intro hRound
  exact absurd hRound.isAbstract (by decide)

------------------------------------------------------------
-- Addresses from the Kernel
------------------------------------------------------------

/- What a socket call writes for an address. -/
structure Report where
  family : UInt16
  path : List Byte
  fits : path.length ≤ 108
  addrlen : UInt64

/- The structure after the kernel wrote into it. -/
def Report.fill (r : Report) (addr : SockaddrUn) :
    SockaddrUn :=
  { addr with sunFamily := r.family }.store 0 r.path
    (by
      rw [Nat.zero_add]
      exact r.fits)

inductive SocketCall where
| accept
| receiveFrom
| getSockName
| getPeerName
deriving DecidableEq, Repr

/- The family check of `getSockName` and `getPeerName`. -/
def checkFamily (message : String) :
    Method UnixAddress Unit := do
  let a ← Command.get
  if a.mAddr.sunFamily ≠ SockaddrUn.afUnix then do
    Command.modify clear
    Command.raise (.runtimeError (str message))
  else pure ()

/-
  How the calls of `Socket` fill in an address: the kernel
  writes to `basePtr()`, then the object is updated.
-/
def fillFrom (call : SocketCall) (r : Report) :
    Method UnixAddress Unit := do
  Command.modify fun a => { a with mAddr := r.fill a.mAddr }
  match call with
  | .accept => update r.addrlen
  | .receiveFrom =>
      if r.addrlen ≠ 0 then update r.addrlen else pure ()
  | .getSockName => do
      checkFamily ("getsockname: unexpected type of " ++
        "SocketAddress was returned")
      update r.addrlen
  | .getPeerName => do
      checkFamily ("getpeername: unexpected type of " ++
        "SocketAddress was returned")
      update r.addrlen

/-
  The addresses that the kernel can report. The path of a
  path based one may fill the structure to the last byte.
-/
inductive KernelAddress where
| unnamed
| pathname
    (path : Str) (hNe : path ≠ [])
    (hFits : path.length ≤ 108) (hNul : 0 ∉ path)
| abstract
    (name : Str) (hNe : name ≠ [])
    (hFits : name.length ≤ 107)

namespace KernelAddress

def path : KernelAddress → Str
| .unnamed => []
| .pathname path _ _ _ => path
| .abstract name _ _ => name

def isUnnamed : KernelAddress → Bool
| .unnamed => true
| _ => false

def isAbstract : KernelAddress → Bool
| .abstract _ _ _ => true
| _ => false

/- The length that the kernel reports. -/
def length : KernelAddress → UInt64
| .unnamed => 2
| .pathname path _ _ _ => UInt64.ofNat (2 + path.length + 1)
| .abstract name _ _ => UInt64.ofNat (2 + 1 + name.length)

/- What the kernel writes, at most the whole structure. -/
def written : KernelAddress → List Byte
| .unnamed => []
| .pathname path _ _ _ => (path ++ [0]).take 108
| .abstract name _ _ => 0 :: name

def report (A : KernelAddress) : Report where
  family := SockaddrUn.afUnix
  path := A.written
  fits := by
    cases A with
    | unnamed => exact Nat.zero_le _
    | pathname path hNe hFits hNul =>
        exact List.length_take_le _ _
    | abstract name hNe hFits =>
        change name.length + 1 ≤ 108
        omega
  addrlen := A.length

end KernelAddress

/-
  The address that a socket call filled in and the one that
  was made from the raw structure both stand for `A`.
-/
structure Decodes
    (A : KernelAddress) (junk : SockaddrUn)
    (filled raw : UnixAddress) : Prop where
  equal : filled.equal raw = some true
  isUnnamed :
    filled.isUnnamed = A.isUnnamed ∧
      raw.isUnnamed = A.isUnnamed
  isAbstract :
    filled.isAbstract = A.isAbstract ∧
      raw.isAbstract = A.isAbstract
  getPath :
    filled.getPath = some A.path ∧
      raw.getPath = some A.path
  used :
    filled.mPathLen ≤ maxPathLen ∧
      raw.mPathLen ≤ maxPathLen
  setPath :
    ∃ a, setPath A.path A.isAbstract (empty junk) = .ok a ∧
      filled.equal a = some true ∧
      raw.equal a = some true

/- What every socket call does with a reported address. -/
theorem run_fillFrom
    (call : SocketCall) (A : KernelAddress)
    (prior : UnixAddress) :
    (fillFrom call A.report).run prior =
      (.returned (),
        { mAddr := A.report.fill prior.mAddr
          mPathLen := A.length - baseSize - 1 }) := by
  have hLong : ¬ A.length < baseSize := by
    rw [UInt64.lt_iff_toNat_lt]
    cases A with
    | unnamed => decide
    | pathname path hNe hFits hNul =>
        unfold KernelAddress.length
        rw [UInt64.toNat_ofNat']
        change ¬ (2 + path.length + 1) % 2 ^ 64 < 2
        omega
    | abstract name hNe hFits =>
        unfold KernelAddress.length
        rw [UInt64.toNat_ofNat']
        change ¬ (2 + 1 + name.length) % 2 ^ 64 < 2
        omega
  have hSome : A.length ≠ 0 := by
    intro hZero
    rw [hZero] at hLong
    exact hLong (by decide)
  have hUpdate :
      (update A.length).run
          { prior with
            mAddr := A.report.fill prior.mAddr } =
        (.returned (),
          { mAddr := A.report.fill prior.mAddr
            mPathLen := A.length - baseSize - 1 }) := by
    unfold update
    rw [if_neg hLong]
    rfl
  have hReport : A.report.addrlen = A.length := rfl
  have hFamily :
      (A.report.fill prior.mAddr).sunFamily =
        SockaddrUn.afUnix := rfl
  cases call with
  | accept => exact hUpdate
  | receiveFrom =>
      simp only [fillFrom, Command.run_bind,
        Command.run_modify, hReport, hSome, ne_eq,
        not_false_eq_true, if_true]
      exact hUpdate
  | getSockName =>
      simp only [fillFrom, checkFamily, Command.run_bind,
        Command.run_modify, Command.run_get, hFamily, ne_eq,
        not_true_eq_false, if_false, Command.run_pure]
      exact hUpdate
  | getPeerName =>
      simp only [fillFrom, checkFamily, Command.run_bind,
        Command.run_modify, Command.run_get, hFamily, ne_eq,
        not_true_eq_false, if_false, Command.run_pure]
      exact hUpdate

/- The length arithmetic of `update`. -/
theorem toNat_decoded (n : Nat) :
    (UInt64.ofNat (2 + 1 + n) - baseSize - 1).toNat =
      n % 2 ^ 64 := by
  rw [UInt64.toNat_sub, UInt64.toNat_sub,
    UInt64.toNat_ofNat']
  change
    (2 ^ 64 - 1 +
      (2 ^ 64 - 2 + (2 + 1 + n) % 2 ^ 64) % 2 ^ 64) %
        2 ^ 64 = _
  omega

/- The length arithmetic of the constructor. -/
theorem toNat_counted (n : Nat) :
    (UInt64.ofNat (2 + 1 + n) - baseSize).toNat =
      (n + 1) % 2 ^ 64 := by
  rw [UInt64.toNat_sub, UInt64.toNat_ofNat']
  change
    (2 ^ 64 - 2 + (2 + 1 + n) % 2 ^ 64) % 2 ^ 64 = _
  omega

/- The first byte of `sun_path` after the kernel wrote. -/
theorem first_fill
    (r : Report) (addr : SockaddrUn) {c : Byte}
    {rest : List Byte} (hPath : r.path = c :: rest) :
    (r.fill addr).first = c := by
  have hInside :
      0 + r.path.length ≤ addr.sunPath.length := by
    rw [addr.length_sunPath, Nat.zero_add]
    exact r.fits
  have hRead := Buffer.read_write hInside
  have hFirst := SockaddrUn.first_eq (r.fill addr)
  have hOne : 1 ≤ r.path.length := by
    rw [hPath, List.length_cons]
    omega
  rw [← Buffer.take_read _ 0 hOne] at hFirst
  change
    [_] = (Buffer.read (Buffer.write addr.sunPath 0 r.path)
      0 r.path.length).take 1 at hFirst
  rw [hRead, hPath] at hFirst
  simpa using hFirst

theorem baseSize_le (n : Nat) (hFits : n ≤ 108) :
    UInt64.ofNat (2 + 1 + n) ≥ baseSize := by
  rw [ge_iff_le, UInt64.le_iff_toNat_le,
    UInt64.toNat_ofNat']
  change 2 ≤ (2 + 1 + n) % 2 ^ 64
  omega

/- An abstract address is decoded by `update`. -/
theorem filled_holds
    {name : Str} (hNe : name ≠ [])
    (hFits : name.length ≤ 107) (addr : SockaddrUn) :
    Holds name true
      { mAddr :=
          (KernelAddress.abstract name hNe
            hFits).report.fill addr
        mPathLen :=
          (KernelAddress.abstract name hNe hFits).length -
            baseSize - 1 } where
  fits := hFits
  len := by
    apply UInt64.toNat_inj.mp
    change
      (UInt64.ofNat (2 + 1 + name.length) - baseSize -
        1).toNat = _
    rw [toNat_decoded, UInt64.toNat_ofNat']
  used := by
    have hInside :
        0 + (0 :: name).length ≤ addr.sunPath.length := by
      rw [addr.length_sunPath, List.length_cons]
      omega
    have hRead := Buffer.read_write hInside
    rw [List.length_cons] at hRead
    exact hRead

/- The abstract address of one character is mistaken. -/
theorem ofRaw_abstract
    {name : Str} (hNe : name ≠ [])
    (hFits : name.length ≤ 107) (raw : SockaddrUn) :
    ofRaw
        ((KernelAddress.abstract name hNe
          hFits).report.fill raw)
        (KernelAddress.abstract name hNe hFits).length =
      { mAddr :=
          (KernelAddress.abstract name hNe
            hFits).report.fill raw
        mPathLen :=
          (KernelAddress.abstract name hNe hFits).length -
            baseSize - 1 } := by
  have hPos : 0 < name.length := List.length_pos_iff.mpr hNe
  have hFirst := first_fill
    (KernelAddress.abstract name hNe hFits).report raw rfl
  have hCounted :
      UInt64.ofNat (2 + 1 + name.length) - baseSize > 1 := by
    rw [gt_iff_lt, UInt64.lt_iff_toNat_lt, toNat_counted]
    change 1 < (name.length + 1) % 2 ^ 64
    omega
  have hLong := baseSize_le name.length (by omega)
  have hLength :
      (KernelAddress.abstract name hNe hFits).length =
        UInt64.ofNat (2 + 1 + name.length) := rfl
  unfold ofRaw isAbstract
  rw [hLength]
  generalize UInt64.ofNat (2 + 1 + name.length) = len
    at hCounted hLong ⊢
  rw [if_pos hLong]
  simp [hFirst, hCounted]

/- The terminator is counted by the constructor only. -/
theorem not_equal_pathname
    {path : Str} (hNe : path ≠ [])
    (hFits : path.length ≤ 108) (hNul : 0 ∉ path)
    (addr raw : SockaddrUn) :
    equal
        { mAddr :=
            (KernelAddress.pathname path hNe hFits
              hNul).report.fill addr
          mPathLen :=
            (KernelAddress.pathname path hNe hFits
              hNul).length - baseSize - 1 }
        (ofRaw
          ((KernelAddress.pathname path hNe hFits
            hNul).report.fill raw)
          (KernelAddress.pathname path hNe hFits
            hNul).length) = some false := by
  have hFirst :
      ((KernelAddress.pathname path hNe hFits
        hNul).report.fill raw).first ≠ 0 := by
    cases path with
    | nil => exact absurd rfl hNe
    | cons c rest =>
        rw [first_fill
          (KernelAddress.pathname (c :: rest) hNe hFits
            hNul).report raw rfl]
        rintro rfl
        exact hNul List.mem_cons_self
  have hLength :
      (KernelAddress.pathname path hNe hFits hNul).length =
        UInt64.ofNat (2 + 1 + path.length) :=
    congrArg UInt64.ofNat
      (Nat.add_right_comm 2 path.length 1)
  have hCounted :
      UInt64.ofNat (2 + 1 + path.length) - baseSize - 1 ≠
        UInt64.ofNat (2 + 1 + path.length) - baseSize := by
    intro hSame
    have hBoth := congrArg UInt64.toNat hSame
    rw [toNat_decoded, toNat_counted] at hBoth
    omega
  have hLong := baseSize_le path.length hFits
  unfold ofRaw isAbstract
  rw [hLength]
  generalize UInt64.ofNat (2 + 1 + path.length) = len
    at hCounted hLong ⊢
  rw [if_pos hLong]
  simp [equal, hFirst, hCounted]

/- The abstract names of two characters and more. -/
def KernelAddress.IsLongAbstract : KernelAddress → Prop
| .abstract name _ _ => 2 ≤ name.length
| _ => False

/-
  The addresses that every socket call and the constructor
  from a raw structure decode alike and correctly are the
  abstract ones of at least two characters. For an unnamed
  address the length wraps around in `update`, for a path
  based one the constructor counts the terminator, and an
  abstract name of one character is not recognized.
-/
theorem decodes_kernel_address_iff
    (call : SocketCall) (A : KernelAddress)
    (prior : UnixAddress) (raw junk : SockaddrUn) :
    ∃ filled,
      (fillFrom call A.report).run prior =
          (.returned (), filled) ∧
        (Decodes A junk filled
            (ofRaw (A.report.fill raw) A.length) ↔
          A.IsLongAbstract) := by
  refine ⟨_, run_fillFrom call A prior, ?_⟩
  constructor
  · intro hDecodes
    cases A with
    | unnamed =>
        have hWrapped : (2 - 2 - 1 : UInt64) ≤ 107 :=
          hDecodes.used.1
        exact absurd hWrapped (by decide)
    | pathname path hNe hFits hNul =>
        have hEqual := hDecodes.equal
        rw [not_equal_pathname hNe hFits hNul] at hEqual
        cases hEqual
    | abstract name hNe hFits =>
        have hHolds := filled_holds hNe hFits prior.mAddr
        have hFlag := hDecodes.isAbstract.1
        rw [hHolds.isAbstract_eq (fun h => nomatch h) hNe]
          at hFlag
        simp only [KernelAddress.isAbstract, Bool.true_and,
          decide_eq_true_eq] at hFlag
        exact hFlag
  · intro hLong
    cases A with
    | unnamed => exact hLong.elim
    | pathname path hNe hFits hNul => exact hLong.elim
    | abstract name hNe hFits =>
        have hTwo : 2 ≤ name.length := hLong
        have hFilled := filled_holds hNe hFits prior.mAddr
        have hRaw := filled_holds hNe hFits raw
        rw [ofRaw_abstract hNe hFits]
        rcases setPath_ok hFits true (empty junk) with
          ⟨a, hSet⟩
        rcases setPath_holds hSet with ⟨hHolds, hFamily⟩
        have hFlag : ∀ b, Holds name true b →
            b.isAbstract = true := by
          intro b hb
          rw [hb.isAbstract_eq (fun h => nomatch h) hNe,
            Bool.true_and, decide_eq_true_eq]
          omega
        have hUsed : ∀ b, Holds name true b →
            b.mPathLen ≤ maxPathLen := by
          intro b hb
          rw [UInt64.le_iff_toNat_le, hb.toNat_len]
          exact hFits
        exact
          { equal := hFilled.equal_eq hRaw rfl
            isUnnamed :=
              ⟨hFilled.isUnnamed_eq hNe,
                hRaw.isUnnamed_eq hNe⟩
            isAbstract := ⟨hFlag _ hFilled, hFlag _ hRaw⟩
            getPath :=
              ⟨hFilled.getPath_eq (hFlag _ hFilled),
                hRaw.getPath_eq (hFlag _ hRaw)⟩
            used := ⟨hUsed _ hFilled, hUsed _ hRaw⟩
            setPath :=
              ⟨a, hSet,
                hFilled.equal_eq hHolds hFamily.symm,
                hRaw.equal_eq hHolds hFamily.symm⟩ }

/-
  Accepting a connection from an unbound peer: the length
  becomes 2^64 - 1 and the address is not unnamed.
-/
theorem accept_unnamed_wraps :
    ∃ filled,
      (fillFrom .accept KernelAddress.unnamed.report).run
          (empty zeroAddr) = (.returned (), filled) ∧
        filled.isUnnamed = false ∧
        filled.mPathLen = 0xffffffffffffffff ∧
        filled.getPath = none ∧
        ¬ Decodes .unnamed zeroAddr filled
          (ofRaw (KernelAddress.unnamed.report.fill zeroAddr)
            KernelAddress.unnamed.length) := by
  refine
    ⟨_, rfl, by decide, by decide, by decide, ?_⟩
  intro hDecodes
  exact absurd hDecodes.isUnnamed.1 (by decide)

end UnixAddress

end Cosmos
