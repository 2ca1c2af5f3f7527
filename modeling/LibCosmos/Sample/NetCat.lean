import LibCosmos.Core.Str
import LibCosmos.FS.FileDescriptor
import LibCosmos.Foundation.Machine

/-
  The netcat of the samples (`sample/netcat.cxx`): how it
  reads its command line and how it exchanges data between
  the standard streams and a socket.

  Main declarations:
    * `NetCat.processArgs`, `NetCat.Accepted`,
      `NetCat.Leads`, `NetCat.processArgs_ends`
    * `NetCat.Exchange`, `NetCat.Exchange.onEvent`
    * `NetCat.onEvent_effect`, `NetCat.exchanged`
-/

namespace Cosmos

namespace NetCat

------------------------------------------------------------
-- Command Line
------------------------------------------------------------

inductive SocketType where
| stream
| dgram
deriving DecidableEq, Repr

inductive SocketFamily where
| unspec
| inet
| inet6
deriving DecidableEq, Repr

structure SocketConfig where
  type : SocketType := .stream
  preferred : SocketFamily := .unspec
  listenMode : Bool := false
  addrspec : Str := []
deriving DecidableEq, Repr

namespace SocketConfig

def useDgram (c : SocketConfig) : Bool := c.type == .dgram

def useStream (c : SocketConfig) : Bool := !c.useDgram

end SocketConfig

/- `status::BAD_CMDLINE`. -/
def badCmdline : ExitStatus := ⟨2⟩

/- The thrown status, with the text on the error stream. -/
structure Failure where
  status : ExitStatus
  text : Str
deriving DecidableEq, Repr

def datagramOpt : Str := str "--datagram"
def listenOpt : Str := str "--listen"
def ipv6Opt : Str := str "--ipv6"
def ipv4Opt : Str := str "--ipv4"

/- `checkPrefferedUnassigned`. -/
def checkPrefferedUnassigned (c : SocketConfig) :
    Except Failure Unit :=
  if c.preferred ≠ .unspec then
    .error ⟨badCmdline,
      str "conflicting flags --ipv4 and --ipv6 encountered\n"⟩
  else .ok ()

/- The body of the loop of `processArgs`. -/
def processArg (c : SocketConfig) (arg : Str) :
    Except Failure SocketConfig :=
  if arg = str "-h" ∨ arg = str "--help" then
    .error ⟨badCmdline, []⟩
  else if c.addrspec = [] then
    if arg = datagramOpt then .ok { c with type := .dgram }
    else if arg = listenOpt then
      .ok { c with listenMode := true }
    else if arg = ipv6Opt then do
      checkPrefferedUnassigned c
      .ok { c with preferred := .inet6 }
    else if arg = ipv4Opt then do
      checkPrefferedUnassigned c
      .ok { c with preferred := .inet }
    else .ok { c with addrspec := arg }
  else
    .error ⟨badCmdline,
      str "unsupported or extraneous argument: " ++ arg ++
        str "\n"⟩

def processLoop :
    SocketConfig → List Str → Except Failure SocketConfig
| c, [] => .ok c
| c, arg :: args => do
    let c ← processArg c arg
    processLoop c args

/- `UNIX_SCHEME`, and what separates a port. -/
def unixScheme : Str := str "unix://"
def colon : Byte := 0x3a
def atSign : Byte := 0x40

/- What an address specification tells to set up. -/
inductive Target where
| unix (path : Str) (isAbstract : Bool)
| ip (host port : Str)
deriving DecidableEq, Repr

/-
  The path of `setupUnixSocket`. An argument ends in a null
  byte, so that there is a byte to look at in any case.
-/
def unixTarget (path : Str) : Target :=
  match path with
  | [] => .unix [] false
  | first :: rest =>
      if first = atSign then .unix rest true
      else .unix path false

/- `find_last_of(':')`. -/
def findLastColon : Str → Option Nat
| [] => none
| c :: rest =>
    match findLastColon rest with
    | some i => some (i + 1)
    | none => if c = colon then some 0 else none

def missingPort (addrspec : Str) : Str :=
  str "Missing port specification (':<port>' suffix) in " ++
    addrspec ++ str "\n"

/-
  `NetCat::setupSocket`. What it does to resolve a name and to
  set up the socket is `network`, which has a status of its
  own where it fails.
-/
def setupSocket
    (network : SocketConfig → Target → Except Failure Unit)
    (c : SocketConfig) : Except Failure Unit :=
  if unixScheme.isPrefixOf c.addrspec then
    network c (unixTarget (c.addrspec.drop unixScheme.length))
  else
    match findLastColon c.addrspec with
    | none =>
        .error ⟨badCmdline, missingPort c.addrspec⟩
    | some portSep =>
        network c
          (.ip (c.addrspec.take portSep)
            (c.addrspec.drop (portSep + 1)))

/- `NetCat::processArgs`, with the configuration it leaves. -/
def processArgs
    (network : SocketConfig → Target → Except Failure Unit)
    (args : List Str) : Except Failure SocketConfig := do
  let c ← processLoop {} args
  if c.addrspec = [] then
    .error ⟨badCmdline,
      str "Missing ADDRSPEC to operate on.\n"⟩
  else
    setupSocket network c
    .ok c

------------------------------------------------------------
-- Accepted Command Lines
------------------------------------------------------------

/- What an argument is, if no address was seen before. -/
inductive Kind where
| help
| nothing
| datagram
| listen
| ipv6
| ipv4
| address
deriving DecidableEq, Repr

def kind (arg : Str) : Kind :=
  if arg = str "-h" ∨ arg = str "--help" then .help
  else if arg = datagramOpt then .datagram
  else if arg = listenOpt then .listen
  else if arg = ipv6Opt then .ipv6
  else if arg = ipv4Opt then .ipv4
  else if arg = [] then .nothing
  else .address

namespace Kind

def isOption : Kind → Bool
| .help => false
| .address => false
| _ => true

def isFamily : Kind → Bool
| .ipv6 => true
| .ipv4 => true
| _ => false

/- What an option changes. -/
def set (c : SocketConfig) : Kind → SocketConfig
| .datagram => { c with type := .dgram }
| .listen => { c with listenMode := true }
| .ipv6 => { c with preferred := .inet6 }
| .ipv4 => { c with preferred := .inet }
| _ => c

end Kind

/- What the options in front of the address ask for. -/
def configured (options : List Kind) (addr : Str) :
    SocketConfig where
  type := if .datagram ∈ options then .dgram else .stream
  preferred :=
    if .ipv6 ∈ options then .inet6
    else if .ipv4 ∈ options then .inet
    else .unspec
  listenMode := decide (.listen ∈ options)
  addrspec := addr

/- Options in front of one address, at most one of a family. -/
def Accepted
    (args : List Str) (c : SocketConfig) : Prop :=
  ∃ options addr,
    args = options ++ [addr] ∧
      (∀ arg ∈ options, (kind arg).isOption) ∧
      (options.map kind).countP Kind.isFamily ≤ 1 ∧
      kind addr = .address ∧
      c = configured (options.map kind) addr

/- How many families the configuration has by now. -/
def preferences (c : SocketConfig) : Nat :=
  if c.preferred = .unspec then 0 else 1

theorem processArg_eq
    (c : SocketConfig) (arg : Str)
    (hNone : c.addrspec = []) :
    processArg c arg =
      match kind arg with
      | .help => .error ⟨badCmdline, []⟩
      | .address => .ok { c with addrspec := arg }
      | k =>
          if k.isFamily ∧ preferences c = 1 then
            .error ⟨badCmdline,
              str
              "conflicting flags --ipv4 and --ipv6 encountered\n"⟩
          else .ok (k.set c) := by
  have hPreferences :
      preferences c = 1 ↔ c.preferred ≠ .unspec := by
    unfold preferences
    split
    · next hEq => simp [hEq]
    · next hNe => simp [hNe]
  have hSame : { c with addrspec := [] } = c := by
    rw [← hNone]
  unfold processArg kind
  rw [if_pos hNone]
  by_cases hHelp : arg = str "-h" ∨ arg = str "--help"
  · rw [if_pos hHelp, if_pos hHelp]
  rw [if_neg hHelp, if_neg hHelp]
  by_cases hDatagram : arg = datagramOpt
  · rw [if_pos hDatagram, if_pos hDatagram]
    simp [Kind.isFamily, Kind.set]
  rw [if_neg hDatagram, if_neg hDatagram]
  by_cases hListen : arg = listenOpt
  · rw [if_pos hListen, if_pos hListen]
    simp [Kind.isFamily, Kind.set]
  rw [if_neg hListen, if_neg hListen]
  by_cases hSix : arg = ipv6Opt
  · rw [if_pos hSix, if_pos hSix]
    simp only [Kind.isFamily, Kind.set, true_and,
      hPreferences, checkPrefferedUnassigned]
    split <;> rfl
  rw [if_neg hSix, if_neg hSix]
  by_cases hFour : arg = ipv4Opt
  · rw [if_pos hFour, if_pos hFour]
    simp only [Kind.isFamily, Kind.set, true_and,
      hPreferences, checkPrefferedUnassigned]
    split <;> rfl
  rw [if_neg hFour, if_neg hFour]
  by_cases hEmpty : arg = []
  · rw [if_pos hEmpty, hEmpty, hSame]
    simp [Kind.isFamily, Kind.set]
  · rw [if_neg hEmpty]

/- Behind an address nothing is accepted. -/
theorem processArg_behind
    (c : SocketConfig) (arg : Str)
    (hSome : c.addrspec ≠ []) :
    ∃ failure, processArg c arg = .error failure := by
  unfold processArg
  split
  · exact ⟨_, rfl⟩
  · exact ⟨_, rfl⟩

theorem preferences_set
    {k : Kind} {c : SocketConfig} :
    preferences (k.set c) =
      if k.isFamily then 1 else preferences c := by
  cases k <;> rfl

theorem addrspec_set (k : Kind) (c : SocketConfig) :
    (k.set c).addrspec = c.addrspec := by
  cases k <;> rfl

/- The configuration by the loop, told for its start. -/
def Reached
    (c : SocketConfig) (args : List Str)
    (c' : SocketConfig) : Prop :=
  ∃ options addr,
    args = options ++ [addr] ∧
      (∀ arg ∈ options, (kind arg).isOption) ∧
      (options.map kind).countP Kind.isFamily +
          preferences c ≤ 1 ∧
      kind addr = .address ∧
      c' =
        { (options.map kind).foldl
            (fun c k => k.set c) c with
          addrspec := addr }

theorem ne_nil_of_address
    {arg : Str} (hKind : kind arg = .address) :
    arg ≠ [] := by
  rintro rfl
  exact absurd hKind (by decide)

theorem reached_address
    {c c' : SocketConfig} {arg : Str} {args : List Str}
    (hKind : kind arg = .address) :
    Reached c (arg :: args) c' ↔
      args = [] ∧ c' = { c with addrspec := arg } := by
  constructor
  · rintro ⟨options, addr, hArgs, hOptions, -, -, hConfig⟩
    cases options with
    | nil =>
        rcases List.cons_eq_cons.mp hArgs with ⟨rfl, rfl⟩
        exact ⟨rfl, hConfig⟩
    | cons first options =>
        rcases List.cons_eq_cons.mp hArgs with ⟨rfl, -⟩
        have hOption := hOptions arg List.mem_cons_self
        rw [hKind] at hOption
        cases hOption
  · rintro ⟨rfl, rfl⟩
    refine ⟨[], arg, rfl, by simp, ?_, hKind, rfl⟩
    unfold preferences
    split <;> simp

theorem not_reached_help
    {c c' : SocketConfig} {arg : Str} {args : List Str}
    (hKind : kind arg = .help) :
    ¬ Reached c (arg :: args) c' := by
  rintro ⟨options, addr, hArgs, hOptions, -, hAddr, -⟩
  cases options with
  | nil =>
      rcases List.cons_eq_cons.mp hArgs with ⟨rfl, -⟩
      rw [hKind] at hAddr
      cases hAddr
  | cons first options =>
      rcases List.cons_eq_cons.mp hArgs with ⟨rfl, -⟩
      have hOption := hOptions arg List.mem_cons_self
      rw [hKind] at hOption
      cases hOption

theorem reached_option
    {c c' : SocketConfig} {arg : Str} {args : List Str}
    (hOption : (kind arg).isOption = true) :
    Reached c (arg :: args) c' ↔
      ¬ ((kind arg).isFamily = true ∧ preferences c = 1) ∧
        Reached ((kind arg).set c) args c' := by
  have hFamilies (options : List Str) :
      ((arg :: options).map kind).countP Kind.isFamily =
        (options.map kind).countP Kind.isFamily +
          if (kind arg).isFamily then 1 else 0 := by
    rw [List.map_cons, List.countP_cons]
  have hBound : preferences c ≤ 1 := by
    unfold preferences
    split <;> simp
  constructor
  · rintro ⟨options, addr, hArgs, hOptions, hCount, hAddr,
      hConfig⟩
    cases options with
    | nil =>
        rcases List.cons_eq_cons.mp hArgs with ⟨rfl, -⟩
        rw [hAddr] at hOption
        cases hOption
    | cons first options =>
        rcases List.cons_eq_cons.mp hArgs with ⟨rfl, rfl⟩
        rw [hFamilies] at hCount
        refine ⟨?_, options, addr, rfl, ?_, ?_, hAddr,
          hConfig⟩
        · rintro ⟨hFamily, hOne⟩
          rw [if_pos hFamily] at hCount
          omega
        · intro a hMem
          exact hOptions a (List.mem_cons_of_mem _ hMem)
        · rw [preferences_set]
          split at hCount
          · next hFamily =>
              rw [if_pos hFamily]
              omega
          · next hOther =>
              rw [if_neg hOther]
              omega
  · rintro ⟨hFree, options, addr, rfl, hOptions, hCount,
      hAddr, hConfig⟩
    refine ⟨arg :: options, addr, rfl, ?_, ?_, hAddr,
      hConfig⟩
    · intro a hMem
      rcases List.mem_cons.mp hMem with rfl | hRest
      · exact hOption
      · exact hOptions a hRest
    · rw [hFamilies]
      rw [preferences_set] at hCount
      by_cases hFamily : (kind arg).isFamily = true
      · have hZero : preferences c ≠ 1 :=
          fun hOne => hFree ⟨hFamily, hOne⟩
        rw [if_pos hFamily] at hCount ⊢
        omega
      · rw [if_neg hFamily] at hCount ⊢
        omega

theorem processLoop_behind
    {c : SocketConfig} (hSome : c.addrspec ≠ [])
    (args : List Str) (c' : SocketConfig) :
    processLoop c args = .ok c' ↔ args = [] ∧ c' = c := by
  cases args with
  | nil =>
      simp only [processLoop, Except.ok.injEq, true_and]
      exact eq_comm
  | cons arg args =>
      rcases processArg_behind c arg hSome with
        ⟨failure, hError⟩
      simp only [processLoop, hError]
      constructor
      · intro hOk
        cases hOk
      · rintro ⟨hArgs, -⟩
        cases hArgs

theorem help_or_address
    {k : Kind} (hOther : ¬ k.isOption = true) :
    k = .help ∨ k = .address := by
  cases k <;> simp [Kind.isOption] at hOther ⊢

/- A second family is refused. -/
theorem processArg_twice
    {c : SocketConfig} (hNone : c.addrspec = []) {arg : Str}
    (hOption : (kind arg).isOption = true)
    (hTwice :
      (kind arg).isFamily = true ∧ preferences c = 1) :
    ∃ failure, processArg c arg = .error failure := by
  rw [processArg_eq c arg hNone]
  generalize kind arg = k at hOption hTwice
  cases k with
  | help => cases hOption
  | address => cases hOption
  | _ => exact ⟨_, if_pos hTwice⟩

theorem processArg_option
    {c : SocketConfig} (hNone : c.addrspec = []) {arg : Str}
    (hOption : (kind arg).isOption = true)
    (hFree :
      ¬ ((kind arg).isFamily = true ∧ preferences c = 1)) :
    processArg c arg = .ok ((kind arg).set c) := by
  rw [processArg_eq c arg hNone]
  generalize kind arg = k at hOption hFree
  cases k with
  | help => cases hOption
  | address => cases hOption
  | _ => exact if_neg hFree

theorem processLoop_ok_iff
    (args : List Str) {c : SocketConfig}
    (hNone : c.addrspec = []) {c' : SocketConfig}
    (hSome : c'.addrspec ≠ []) :
    processLoop c args = .ok c' ↔ Reached c args c' := by
  induction args generalizing c with
  | nil =>
      simp only [processLoop, Except.ok.injEq]
      constructor
      · rintro rfl
        exact absurd hNone hSome
      · rintro ⟨options, addr, hArgs, -⟩
        simp at hArgs
  | cons arg args ih =>
      have hArg := processArg_eq c arg hNone
      have hTail :=
        ih (c := (kind arg).set c)
          (by rw [addrspec_set, hNone])
      by_cases hOption : (kind arg).isOption = true
      · rw [reached_option hOption, ← hTail]
        by_cases hTwice :
            (kind arg).isFamily = true ∧ preferences c = 1
        · rcases processArg_twice hNone hOption hTwice with
            ⟨failure, hError⟩
          simp only [processLoop, hError, hTwice]
          constructor
          · intro hOk
            cases hOk
          · rintro ⟨hFalse, -⟩
            exact absurd ⟨trivial, trivial⟩ hFalse
        · have hOk := processArg_option hNone hOption hTwice
          simp only [processLoop, hOk]
          constructor
          · intro hLoop
            exact ⟨hTwice, hLoop⟩
          · rintro ⟨-, hLoop⟩
            exact hLoop
      · rcases help_or_address hOption with hKind | hKind
        · rw [hKind] at hArg
          simp only [processLoop, hArg]
          constructor
          · intro hOk
            cases hOk
          · intro hReached
            exact absurd hReached (not_reached_help hKind)
        · rw [hKind] at hArg
          have hAddr := ne_nil_of_address hKind
          rw [reached_address hKind]
          simp only [processLoop, hArg]
          exact processLoop_behind hAddr args c'

/- The loop on options, if there is one family at most. -/
theorem foldl_set
    (ks : List Kind) (addr : Str) {c : SocketConfig}
    (hCount : ks.countP Kind.isFamily + preferences c ≤ 1) :
    { ks.foldl (fun c k => k.set c) c with addrspec := addr } =
      { type := if .datagram ∈ ks then .dgram else c.type
        preferred :=
          if .ipv6 ∈ ks then .inet6
          else if .ipv4 ∈ ks then .inet
          else c.preferred
        listenMode := c.listenMode || decide (.listen ∈ ks)
        addrspec := addr : SocketConfig } := by
  induction ks generalizing c with
  | nil => simp
  | cons k ks ih =>
      rw [List.countP_cons] at hCount
      have hTail :
          ks.countP Kind.isFamily + preferences (k.set c) ≤
            1 := by
        rw [preferences_set]
        split at hCount
        · next hFamily =>
            rw [if_pos hFamily]
            omega
        · next hOther =>
            rw [if_neg hOther]
            omega
      have hNone (hFamily : k.isFamily = true) :
          .ipv6 ∉ ks ∧ .ipv4 ∉ ks := by
        rw [if_pos hFamily] at hCount
        have hZero : ks.countP Kind.isFamily = 0 := by omega
        rw [List.countP_eq_zero] at hZero
        exact
          ⟨fun hMem => hZero _ hMem rfl,
            fun hMem => hZero _ hMem rfl⟩
      rw [List.foldl_cons, ih hTail]
      cases k with
      | ipv6 =>
          have hOthers := hNone rfl
          simp [Kind.set, hOthers.1, hOthers.2]
      | ipv4 =>
          have hOthers := hNone rfl
          simp [Kind.set, hOthers.1, hOthers.2]
      | help => simp [Kind.set]
      | nothing => simp [Kind.set]
      | datagram => simp [Kind.set]
      | listen => simp [Kind.set]
      | address => simp [Kind.set]

/- Every configuration of the loop is an accepted one. -/
theorem processLoop_eq_iff
    (args : List Str) {c : SocketConfig}
    (hSome : c.addrspec ≠ []) :
    processLoop {} args = .ok c ↔ Accepted args c := by
  have hStart : ({} : SocketConfig).addrspec = [] := rfl
  rw [processLoop_ok_iff args hStart hSome]
  constructor
  · rintro ⟨options, addr, hArgs, hOptions, hCount, hAddr,
      rfl⟩
    refine
      ⟨options, addr, hArgs, hOptions, hCount, hAddr, ?_⟩
    rw [foldl_set _ addr hCount, configured]
    simp
  · rintro ⟨options, addr, hArgs, hOptions, hCount, hAddr,
      rfl⟩
    refine
      ⟨options, addr, hArgs, hOptions, hCount, hAddr, ?_⟩
    have hFold :=
      foldl_set (c := {}) _ addr
        (show _ + preferences {} ≤ 1 from hCount)
    rw [hFold, configured]
    simp

theorem addrspec_of_accepted
    {args : List Str} {c : SocketConfig}
    (hAccepted : Accepted args c) :
    c.addrspec ≠ [] := by
  rcases hAccepted with ⟨options, addr, -, -, -, hAddr, rfl⟩
  exact ne_nil_of_address hAddr

/- Every refusal of an argument has the usage status. -/
theorem status_of_processArg
    {c : SocketConfig} {arg : Str} {failure : Failure}
    (hError : processArg c arg = .error failure) :
    failure.status = badCmdline := by
  by_cases hNone : c.addrspec = []
  · rw [processArg_eq c arg hNone] at hError
    cases hKind : kind arg with
    | help =>
        simp only [hKind] at hError
        cases hError
        rfl
    | address =>
        simp only [hKind] at hError
        cases hError
    | _ =>
        simp only [hKind] at hError
        split at hError
        · cases hError
          rfl
        · cases hError
  · unfold processArg at hError
    rw [if_neg hNone] at hError
    split at hError
    · cases hError
      rfl
    · cases hError
      rfl

theorem status_of_processLoop
    (args : List Str) {c : SocketConfig} {failure : Failure}
    (hError : processLoop c args = .error failure) :
    failure.status = badCmdline := by
  induction args generalizing c with
  | nil => cases hError
  | cons arg args ih =>
      cases hArg : processArg c arg with
      | error other =>
          simp only [processLoop, hArg] at hError
          cases hError
          exact status_of_processArg hArg
      | ok c' =>
          simp only [processLoop, hArg] at hError
          exact ih hError

------------------------------------------------------------
-- Addresses
------------------------------------------------------------

/-
  What an address stands for: a path behind the scheme, in
  the abstract name space if there is an `@`, or a host and a
  port behind the last colon.
-/
def Leads (addr : Str) : Target → Prop
| .unix path true => addr = unixScheme ++ atSign :: path
| .unix path false =>
    addr = unixScheme ++ path ∧ path.head? ≠ some atSign
| .ip host port =>
    ¬ unixScheme <+: addr ∧
      addr = host ++ colon :: port ∧ colon ∉ port

theorem findLastColon_none_iff (s : Str) :
    findLastColon s = none ↔ colon ∉ s := by
  induction s with
  | nil => simp [findLastColon]
  | cons c rest ih =>
      unfold findLastColon
      cases hRest : findLastColon rest with
      | some i =>
          rw [hRest] at ih
          have hMem : colon ∈ rest := by
            by_contra hNot
            cases ih.mpr hNot
          simp [hMem]
      | none =>
          have hNot := ih.mp hRest
          by_cases hColon : c = colon
          · simp [hColon]
          · simp [hColon, hNot, Ne.symm hColon]

/- Behind the last colon there is no other one. -/
theorem findLastColon_some_iff (s : Str) (i : Nat) :
    findLastColon s = some i ↔
      ∃ host port, s = host ++ colon :: port ∧
        colon ∉ port ∧ host.length = i := by
  induction s generalizing i with
  | nil => simp [findLastColon]
  | cons c rest ih =>
      unfold findLastColon
      cases hRest : findLastColon rest with
      | some j =>
          rcases (ih j).mp hRest with
            ⟨host, port, hSplit, hPort, hLength⟩
          constructor
          · intro hEq
            cases hEq
            refine ⟨c :: host, port, ?_, hPort, ?_⟩
            · rw [hSplit, List.cons_append]
            · rw [List.length_cons, hLength]
          · rintro ⟨host', port', hSplit', hPort', hLength'⟩
            cases host' with
            | nil =>
                rcases List.cons_eq_cons.mp hSplit' with
                  ⟨-, hTail⟩
                exact absurd (by simp [hSplit])
                  (hTail ▸ hPort')
            | cons first host' =>
                rcases List.cons_eq_cons.mp hSplit' with
                  ⟨-, hTail⟩
                have hSame :=
                  (ih host'.length).mpr
                    ⟨host', port', hTail, hPort', rfl⟩
                rw [hRest] at hSame
                cases hSame
                rw [← hLength', List.length_cons]
      | none =>
          have hNot := (findLastColon_none_iff rest).mp hRest
          constructor
          · intro hEq
            by_cases hColon : c = colon
            · rw [if_pos hColon] at hEq
              cases hEq
              exact ⟨[], rest, by rw [hColon]; rfl, hNot, rfl⟩
            · rw [if_neg hColon] at hEq
              cases hEq
          · rintro ⟨host, port, hSplit, hPort, rfl⟩
            cases host with
            | nil =>
                rcases List.cons_eq_cons.mp hSplit with
                  ⟨hColon, -⟩
                rw [if_pos hColon]
                rfl
            | cons first host =>
                rcases List.cons_eq_cons.mp hSplit with
                  ⟨-, hTail⟩
                exact absurd (by simp [hTail]) hNot

theorem leads_unixTarget (path : Str) (target : Target) :
    Leads (unixScheme ++ path) target ↔
      target = unixTarget path := by
  have hScheme : unixScheme <+: unixScheme ++ path :=
    List.prefix_append _ _
  cases target with
  | ip host port =>
      refine iff_of_false (fun hLeads => hLeads.1 hScheme) ?_
      intro hEq
      unfold unixTarget at hEq
      split at hEq
      · cases hEq
      · split at hEq <;> cases hEq
  | unix name isAbstract =>
      cases isAbstract with
      | true =>
          simp only [Leads, List.append_cancel_left_eq]
          cases path with
          | nil => simp [unixTarget]
          | cons first rest =>
              by_cases hAt : first = atSign
              · simp [unixTarget, hAt, eq_comm]
              · simp [unixTarget, hAt]
      | false =>
          simp only [Leads, List.append_cancel_left_eq]
          cases path with
          | nil =>
              simp only [unixTarget, Target.unix.injEq]
              constructor
              · rintro ⟨rfl, -⟩
                exact ⟨rfl, trivial⟩
              · rintro ⟨rfl, -⟩
                exact ⟨rfl, by simp⟩
          | cons first rest =>
              by_cases hAt : first = atSign
              · simp only [unixTarget, if_pos hAt]
                constructor
                · rintro ⟨rfl, hOther⟩
                  exact absurd (by simp [hAt]) hOther
                · intro hEq
                  cases hEq
              · simp only [unixTarget, if_neg hAt,
                  Target.unix.injEq, and_true]
                constructor
                · rintro ⟨rfl, -⟩
                  rfl
                · rintro rfl
                  exact ⟨rfl, by simp [hAt]⟩

theorem scheme_of_leads
    {spec path : Str} {isAbstract : Bool}
    (hLeads : Leads spec (.unix path isAbstract)) :
    unixScheme <+: spec := by
  cases isAbstract with
  | true => exact ⟨_, hLeads.symm⟩
  | false => exact ⟨_, hLeads.1.symm⟩

/- Only one target for an address with a port. -/
theorem leads_ip_iff
    {spec : Str} (hScheme : ¬ unixScheme <+: spec)
    {host port : Str} (hSplit : spec = host ++ colon :: port)
    (hPort : colon ∉ port) (target : Target) :
    Leads spec target ↔ target = .ip host port := by
  cases target with
  | unix path isAbstract =>
      refine iff_of_false ?_ nofun
      exact fun hLeads => hScheme (scheme_of_leads hLeads)
  | ip host' port' =>
      constructor
      · rintro ⟨-, hSplit', hPort'⟩
        have hLast :=
          (findLastColon_some_iff _ _).mpr
            ⟨host, port, hSplit, hPort, rfl⟩
        have hLast' :=
          (findLastColon_some_iff _ _).mpr
            ⟨host', port', hSplit', hPort', rfl⟩
        rw [hLast] at hLast'
        have hLength := Option.some.inj hLast'
        rw [hSplit] at hSplit'
        rcases List.append_inj hSplit' hLength with
          ⟨hHosts, hPorts⟩
        rw [hHosts, (List.cons_eq_cons.mp hPorts).2]
      · intro hEq
        cases hEq
        exact ⟨hScheme, hSplit, hPort⟩

/- Without a scheme and a port it leads nowhere. -/
theorem not_leads_of_colon
    {spec : Str} (hScheme : ¬ unixScheme <+: spec)
    (hColon : colon ∉ spec) (target : Target) :
    ¬ Leads spec target := by
  intro hLeads
  cases target with
  | unix path isAbstract =>
      exact hScheme (scheme_of_leads hLeads)
  | ip host port =>
      apply hColon
      rw [hLeads.2.1]
      simp

theorem setupSocket_scheme
    (network : SocketConfig → Target → Except Failure Unit)
    {c : SocketConfig} {path : Str}
    (hPath : c.addrspec = unixScheme ++ path) :
    setupSocket network c = network c (unixTarget path) := by
  have hScheme : unixScheme <+: c.addrspec := ⟨path, hPath.symm⟩
  unfold setupSocket
  rw [if_pos (List.isPrefixOf_iff_prefix.mpr hScheme), hPath,
    List.drop_left]

theorem setupSocket_other
    (network : SocketConfig → Target → Except Failure Unit)
    {c : SocketConfig} (hScheme : ¬ unixScheme <+: c.addrspec) :
    setupSocket network c =
      match findLastColon c.addrspec with
      | none =>
          .error ⟨badCmdline, missingPort c.addrspec⟩
      | some portSep =>
          network c
            (.ip (c.addrspec.take portSep)
              (c.addrspec.drop (portSep + 1))) := by
  unfold setupSocket
  rw [if_neg]
  intro hTrue
  exact hScheme (List.isPrefixOf_iff_prefix.mp hTrue)

/-
  The network is asked for what the address leads to. An
  address that leads nowhere is refused.
-/
theorem setupSocket_cases
    (c : SocketConfig) :
    (∃ target,
        (∀ other, Leads c.addrspec other ↔ other = target) ∧
        ∀ network,
          setupSocket network c = network c target) ∨
      (∀ target, ¬ Leads c.addrspec target) ∧
        ∃ text, ∀ network,
          setupSocket network c =
            .error ⟨badCmdline, text⟩ := by
  by_cases hScheme : unixScheme <+: c.addrspec
  · left
    rcases hScheme with ⟨path, hPath⟩
    refine ⟨unixTarget path, ?_, fun network => ?_⟩
    · rw [← hPath]
      exact leads_unixTarget path
    · exact setupSocket_scheme network hPath.symm
  · cases hColon : findLastColon c.addrspec with
    | none =>
        right
        have hNot :=
          (findLastColon_none_iff c.addrspec).mp hColon
        refine
          ⟨not_leads_of_colon hScheme hNot,
            missingPort c.addrspec, fun network => ?_⟩
        rw [setupSocket_other network hScheme, hColon]
    | some portSep =>
        left
        rcases (findLastColon_some_iff _ _).mp hColon with
          ⟨host, port, hSplit, hPort, hLength⟩
        refine
          ⟨.ip host port, leads_ip_iff hScheme hSplit hPort,
            fun network => ?_⟩
        have hHost : c.addrspec.take portSep = host := by
          rw [hSplit, ← hLength, List.take_left]
        have hRest : c.addrspec.drop (portSep + 1) = port := by
          rw [hSplit, ← hLength, ← List.drop_drop,
            List.drop_left]
          rfl
        rw [setupSocket_other network hScheme, hColon]
        simp only [hHost, hRest]

/- An address in a configuration that the loop leaves. -/
theorem processArgs_of_accepted
    (network : SocketConfig → Target → Except Failure Unit)
    {args : List Str} {c : SocketConfig}
    (hAccepted : Accepted args c) :
    processArgs network args =
      (setupSocket network c).map fun _ => c := by
  have hSome := addrspec_of_accepted hAccepted
  have hLoop := (processLoop_eq_iff args hSome).mpr hAccepted
  unfold processArgs
  rw [hLoop]
  refine (if_neg hSome).trans ?_
  cases setupSocket network c <;> rfl

/-
  The command lines that are accepted: options, and empty
  arguments, in any order and any number with at most one
  `--ipv4` or `--ipv6`, and as the last argument an address
  that leads somewhere. The rest is up to the network; every
  other command line ends with the usage status whatever the
  network does.
-/
theorem processArgs_ends
    (args : List Str) :
    (∀ c target, Accepted args c → Leads c.addrspec target →
        ∀ network,
          processArgs network args =
            (network c target).map fun _ => c) ∧
      ((∀ c target, Accepted args c →
          ¬ Leads c.addrspec target) →
        ∃ text, ∀ network,
          processArgs network args =
            .error ⟨badCmdline, text⟩) := by
  constructor
  · intro c target hAccepted hLeads network
    rw [processArgs_of_accepted network hAccepted]
    rcases setupSocket_cases c with
      ⟨there, hOnly, hSetup⟩ | ⟨hNowhere, -⟩
    · rw [hSetup, (hOnly target).mp hLeads]
    · exact absurd hLeads (hNowhere target)
  · intro hNone
    cases hLoop : processLoop {} args with
    | error failure =>
        have hStatus := status_of_processLoop args hLoop
        refine ⟨failure.text, fun network => ?_⟩
        unfold processArgs
        rw [hLoop, ← hStatus]
        rfl
    | ok c =>
        by_cases hEmpty : c.addrspec = []
        · refine
            ⟨str "Missing ADDRSPEC to operate on.\n",
              fun network => ?_⟩
          unfold processArgs
          rw [hLoop]
          exact if_pos hEmpty
        · have hAccepted :=
            (processLoop_eq_iff args hEmpty).mp hLoop
          rcases setupSocket_cases c with
            ⟨target, hOnly, -⟩ | ⟨-, text, hSetup⟩
          · have hLeads := (hOnly target).mpr rfl
            exact absurd hLeads (hNone c target hAccepted)
          · refine ⟨text, fun network => ?_⟩
            rw [processArgs_of_accepted network hAccepted,
              hSetup]
            rfl

------------------------------------------------------------
-- Exchanging Data
------------------------------------------------------------

/- `BUFSIZ`. -/
def bufsiz : Nat := 8192

/-
  The variables of `exchangeData`, with what the standard
  input and the peer still have and what both got so far.
-/
structure Exchange where
  buffer : Nat
  running : Bool
  stdinMonitored : Bool
  socketMonitored : Bool
  stdin : List Byte
  peer : List Byte
  toSocket : List Byte
  toStdout : List Byte
  thrown : Option Exn
deriving DecidableEq

/-
  An event that `Poller::wait` reports and the answers to
  the calls that its handling makes.
-/
inductive Event where
| stdin (read write : Sys Nat) (shutdown delFD : Sys Unit)
| socket (read write : Sys Nat)
deriving DecidableEq, Repr

namespace Exchange

/- The start of `exchangeData`. -/
def start
    (c : SocketConfig) (stdin peer : List Byte) :
    Exchange where
  buffer := bufsiz
  running := true
  stdinMonitored := c.useStream || !c.listenMode
  socketMonitored := c.useStream || c.listenMode
  stdin := stdin
  peer := peer
  toSocket := []
  toStdout := []
  thrown := none

/- An exception leaves the loops. -/
def throw (s : Exchange) (e : Errno) (operation : String) :
    Exchange :=
  { s with thrown := some (.apiError e (str operation)) }

/- At the end of the standard input, with the `catch`. -/
def endOfInput
    (c : SocketConfig) (s : Exchange)
    (shutdown delFD : Sys Unit) : Exchange :=
  let s :=
    match shutdown, delFD with
    | .ok (), .ok () => { s with stdinMonitored := false }
    | _, _ => { s with running := false }
  if c.useDgram && !c.listenMode then
    { s with running := false }
  else s

/- The body of the `for` loop. -/
def onEvent (c : SocketConfig) (s : Exchange) :
    Event → Exchange
| .stdin read write shutdown delFD =>
    match read with
    | .error e => s.throw e "read()"
    | .ok bytes =>
        let data := s.stdin.take bytes
        -- The buffer is cut to what was read.
        let s :=
          { s with buffer := bytes
                   stdin := s.stdin.drop bytes }
        if bytes = 0 then s.endOfInput c shutdown delFD
        else
          match write with
          | .error e => s.throw e "write()"
          | .ok n =>
              { s with toSocket := s.toSocket ++ data.take n }
| .socket read write =>
    match read with
    | .error e => s.throw e "read()"
    | .ok bytes =>
        let data := s.peer.take bytes
        let s := { s with peer := s.peer.drop bytes }
        if bytes = 0 then { s with running := false }
        else
          match write with
          | .error e => s.throw e "write()"
          | .ok n =>
              { s with toStdout := s.toStdout ++ data.take n }

/- The `for` loop on what one `wait` returned. -/
def onEvents (c : SocketConfig) :
    Exchange → List Event → Exchange
| s, [] => s
| s, e :: es =>
    if s.thrown.isSome then s
    else onEvents c (s.onEvent c e) es

end Exchange

/-
  A `read` gets at most what the buffer has room for, and
  nothing only if it has no room or at the end.
-/
def Reads (buffer : Nat) (rest : List Byte) :
    Sys Nat → Prop
| .error _ => True
| .ok n =>
    n ≤ buffer ∧ n ≤ rest.length ∧
      (n = 0 → buffer = 0 ∨ rest = [])

/- What the kernel can answer to the calls for an event. -/
def Answered (s : Exchange) : Event → Prop
| .stdin read _ _ _ => Reads s.buffer s.stdin read
| .socket read _ => Reads s.buffer s.peer read

def AllAnswered (c : SocketConfig) :
    Exchange → List Event → Prop
| _, [] => True
| s, e :: es =>
    s.thrown = none →
      Answered s e ∧ AllAnswered c (s.onEvent c e) es

namespace Event

def monitored (s : Exchange) : Event → Bool
| .stdin _ _ _ _ => s.stdinMonitored
| .socket _ _ => s.socketMonitored

/- What a `read` from the standard input returned. -/
def stdinRead : Event → Option Nat
| .stdin (.ok bytes) _ _ _ => some bytes
| _ => none

/- A `write` that does not stop short fails or takes all. -/
def WritesAll : Event → Prop
| .stdin (.ok bytes) (.ok n) _ _ => n = bytes
| .socket (.ok bytes) (.ok n) => n = bytes
| _ => True

end Event

/-
  The `while` loop over streams, with what each `wait`
  returns.
-/
def exchangeData (c : SocketConfig) :
    Machine Exchange (List Event) where
  legal s events :=
    c.useStream = true ∧
      (∀ e ∈ events, e.monitored s = true) ∧
      AllAnswered c s events
  step s events :=
    if s.running && s.thrown.isNone then s.onEvents c events
    else s

/- The events of a batch that the `for` loop gets to. -/
def handledIn (c : SocketConfig) :
    Exchange → List Event → List Event
| _, [] => []
| s, e :: es =>
    if s.thrown.isSome then []
    else e :: handledIn c (s.onEvent c e) es

/- All events of a run that are handled, in order. -/
def handled (c : SocketConfig) :
    Exchange → List (List Event) → List Event
| _, [] => []
| s, es :: batches =>
    (if s.running && s.thrown.isNone then handledIn c s es
      else []) ++
      handled c ((exchangeData c).step s es) batches

------------------------------------------------------------
-- What an Event Does
------------------------------------------------------------

variable {c : SocketConfig}

theorem endOfInput_fields
    (s : Exchange) (shutdown delFD : Sys Unit) :
    (s.endOfInput c shutdown delFD).buffer = s.buffer ∧
      (s.endOfInput c shutdown delFD).stdin = s.stdin ∧
      (s.endOfInput c shutdown delFD).peer = s.peer ∧
      (s.endOfInput c shutdown delFD).toSocket =
        s.toSocket ∧
      (s.endOfInput c shutdown delFD).toStdout =
        s.toStdout ∧
      (s.endOfInput c shutdown delFD).thrown = s.thrown := by
  unfold Exchange.endOfInput
  cases shutdown with
  | ok =>
      cases delFD with
      | ok => simp only; split <;> simp
      | error e => simp only; split <;> simp
  | error e => simp only; split <;> simp

/-
  A side after an event: of what it has, `took` bytes were
  read into the room there is, and the first `gave` of them
  were written to the other side.
-/
def Moved
    (room : Nat) (complete : Prop)
    (rest got rest' got' : List Byte) : Prop :=
  ∃ took gave,
    took ≤ room ∧
      rest' = rest.drop took ∧
      got' = got ++ (rest.take took).take gave ∧
      (complete → gave = took)

/- All that handling an event can do. -/
structure Effect (s s' : Exchange) (e : Event) : Prop where
  input :
    Moved s.buffer (s'.thrown = none ∧ e.WritesAll)
      s.stdin s.toSocket s'.stdin s'.toSocket
  output :
    Moved s.buffer (s'.thrown = none ∧ e.WritesAll)
      s.peer s.toStdout s'.peer s'.toStdout
  shrinks : s'.buffer ≤ s.buffer
  cut : ∀ n, e.stdinRead = some n → s'.buffer ≤ n
  eof : s'.buffer = 0 → s.buffer = 0 ∨ s'.stdin = []
  ended :
    s'.running = false → s'.thrown = none →
      s.running = false ∨ s'.buffer = 0 ∨ s'.peer = []

theorem moved_nothing
    (room : Nat) (complete : Prop)
    (rest got : List Byte) :
    Moved room complete rest got rest got :=
  ⟨0, 0, Nat.zero_le _, rfl, by simp, fun _ => rfl⟩

/- What was read and could not be written is lost. -/
theorem moved_lost
    {room took : Nat} {complete : Prop}
    {rest got : List Byte}
    (hRoom : took ≤ room) (hPartial : ¬ complete) :
    Moved room complete rest got (rest.drop took) got :=
  ⟨took, 0, hRoom, rfl, by simp,
    fun hComplete => absurd hComplete hPartial⟩

/- A `read` that fails leaves everything as it is. -/
theorem effect_of_unread
    {s : Exchange} {e : Event} (exn : Errno) (op : String)
    (hUnread : e.stdinRead = none) :
    Effect s (s.throw exn op) e where
  input := moved_nothing _ _ _ _
  output := moved_nothing _ _ _ _
  shrinks := Nat.le_refl _
  cut n hRead := by
    rw [hUnread] at hRead
    cases hRead
  eof := Or.inl
  ended hEnded _ := Or.inl hEnded

/- The end of the standard input: the buffer is empty. -/
theorem effect_stdin_end
    {s : Exchange} {write : Sys Nat}
    {shutdown delFD : Sys Unit}
    (hEnd : s.buffer = 0 ∨ s.stdin = []) :
    Effect s
      (Exchange.endOfInput c { s with buffer := 0 } shutdown
        delFD)
      (.stdin (.ok 0) write shutdown delFD) := by
  rcases
      endOfInput_fields (c := c) { s with buffer := 0 }
        shutdown delFD with
    ⟨hBuffer, hStdin, hPeer, hSocket, hStdout, -⟩
  constructor
  · rw [hStdin, hSocket]
    exact moved_nothing _ _ _ _
  · rw [hPeer, hStdout]
    exact moved_nothing _ _ _ _
  · rw [hBuffer]
    exact Nat.zero_le _
  · intro n _
    rw [hBuffer]
    exact Nat.zero_le _
  · intro _
    rw [hStdin]
    exact hEnd
  · intro _ _
    exact Or.inr (Or.inl hBuffer)

/- Data from the standard input: the buffer is cut to it. -/
theorem effect_stdin_data
    {s : Exchange} {bytes : Nat} {write : Sys Nat}
    {shutdown delFD : Sys Unit}
    (hRoom : bytes ≤ s.buffer) (hSome : bytes ≠ 0) :
    Effect s
      (s.onEvent c (.stdin (.ok bytes) write shutdown delFD))
      (.stdin (.ok bytes) write shutdown delFD) := by
  have hCut : ∀ n,
      Event.stdinRead
          (.stdin (.ok bytes) write shutdown delFD) =
        some n →
      bytes ≤ n := by
    intro n hRead
    cases hRead
    exact Nat.le_refl _
  simp only [Exchange.onEvent, hSome, if_false]
  cases write with
  | error e =>
      exact
        { input :=
            moved_lost hRoom fun hAll => by cases hAll.1
          output := moved_nothing _ _ _ _
          shrinks := hRoom
          cut := hCut
          eof := fun hEnd => absurd hEnd hSome
          ended := fun _ hNone => by cases hNone }
  | ok n =>
      exact
        { input :=
            ⟨bytes, n, hRoom, rfl, rfl, fun hAll => hAll.2⟩
          output := moved_nothing _ _ _ _
          shrinks := hRoom
          cut := hCut
          eof := fun hEnd => absurd hEnd hSome
          ended := fun hEnded _ => Or.inl hEnded }

/- The end of the peer, or no room to read from it. -/
theorem effect_socket_end
    {s : Exchange} {write : Sys Nat}
    (hEnd : s.buffer = 0 ∨ s.peer = []) :
    Effect s { s with running := false }
      (.socket (.ok 0) write) where
  input := moved_nothing _ _ _ _
  output := moved_nothing _ _ _ _
  shrinks := Nat.le_refl _
  cut n hRead := by cases hRead
  eof := Or.inl
  ended _ _ := Or.inr hEnd

/- Data from the peer: the buffer stays as it is. -/
theorem effect_socket_data
    {s : Exchange} {bytes : Nat} {write : Sys Nat}
    (hRoom : bytes ≤ s.buffer) (hSome : bytes ≠ 0) :
    Effect s (s.onEvent c (.socket (.ok bytes) write))
      (.socket (.ok bytes) write) := by
  simp only [Exchange.onEvent, hSome, if_false]
  cases write with
  | error e =>
      exact
        { input := moved_nothing _ _ _ _
          output :=
            moved_lost hRoom fun hAll => by cases hAll.1
          shrinks := Nat.le_refl _
          cut := fun n hRead => by cases hRead
          eof := Or.inl
          ended := fun _ hNone => by cases hNone }
  | ok n =>
      exact
        { input := moved_nothing _ _ _ _
          output :=
            ⟨bytes, n, hRoom, rfl, rfl, fun hAll => hAll.2⟩
          shrinks := Nat.le_refl _
          cut := fun n hRead => by cases hRead
          eof := Or.inl
          ended := fun hEnded _ => Or.inl hEnded }

theorem onEvent_effect
    {s : Exchange} {e : Event}
    (hAnswered : Answered s e) :
    Effect s (s.onEvent c e) e := by
  cases e with
  | stdin read write shutdown delFD =>
      cases read with
      | error e => exact effect_of_unread e "read()" rfl
      | ok bytes =>
          rcases hAnswered with ⟨hRoom, -, hNone⟩
          by_cases hZero : bytes = 0
          · subst hZero
            exact effect_stdin_end (hNone rfl)
          · exact effect_stdin_data hRoom hZero
  | socket read write =>
      cases read with
      | error e => exact effect_of_unread e "read()" rfl
      | ok bytes =>
          rcases hAnswered with ⟨hRoom, -, hNone⟩
          by_cases hZero : bytes = 0
          · subst hZero
            exact effect_socket_end (hNone rfl)
          · exact effect_socket_data hRoom hZero

------------------------------------------------------------
-- What a Run Does
------------------------------------------------------------

/- What every event keeps, the handling of a batch keeps. -/
theorem onEvents_kept
    {Kept : Exchange → Prop} {Good : Event → Prop}
    (hEvent :
      ∀ s s' e, Kept s → Good e → s.thrown = none →
        Effect s s' e → Kept s') :
    ∀ (es : List Event) (s : Exchange), Kept s →
      AllAnswered c s es → (∀ e ∈ es, Good e) →
      Kept (s.onEvents c es)
| [], _, hKept, _, _ => hKept
| e :: es, s, hKept, hAnswered, hGood => by
    unfold Exchange.onEvents
    split
    · exact hKept
    · next hRuns =>
        have hThrown : s.thrown = none := by
          simpa using hRuns
        rcases hAnswered hThrown with ⟨hHead, hTail⟩
        have hNext : Kept (s.onEvent c e) :=
          hEvent s (s.onEvent c e) e hKept
            (hGood e List.mem_cons_self) hThrown
            (onEvent_effect hHead)
        refine onEvents_kept hEvent es _ hNext hTail ?_
        intro e' hMem
        exact hGood e' (List.mem_cons_of_mem e hMem)

/- And so does the whole loop. -/
theorem exchangeData_kept
    {Kept : Exchange → Prop} (Good : Event → Prop)
    (hEvent :
      ∀ s s' e, Kept s → Good e → s.thrown = none →
        Effect s s' e → Kept s')
    {s : Exchange} (hKept : Kept s)
    {batches : List (List Event)}
    (hLegal : (exchangeData c).Legal s batches)
    (hGood : ∀ es ∈ batches, ∀ e ∈ es, Good e) :
    Kept ((exchangeData c).run s batches) := by
  refine
    Machine.run_of_invariant Kept
      (fun es => ∀ e ∈ es, Good e) ?_ batches s
      hKept hLegal hGood
  intro s es hKept hLegal hGood
  simp only [exchangeData]
  split
  · exact onEvents_kept hEvent es s hKept hLegal.2.2 hGood
  · exact hKept

/- A batch cuts the buffer to what it has read. -/
theorem buffer_onEvents
    {n : Nat} :
    ∀ {es : List Event} {s : Exchange},
      AllAnswered c s es →
      (∃ e ∈ handledIn c s es, e.stdinRead = some n) →
      (s.onEvents c es).buffer ≤ n
| [], _, _, hRead => by
    rcases hRead with ⟨e, hMem, -⟩
    exact absurd hMem List.not_mem_nil
| e :: es, s, hAnswered, hRead => by
    unfold handledIn at hRead
    unfold Exchange.onEvents
    by_cases hSome : s.thrown.isSome = true
    · rw [if_pos hSome] at hRead
      rcases hRead with ⟨e', hMem, -⟩
      exact absurd hMem List.not_mem_nil
    · rw [if_neg hSome] at hRead ⊢
      have hThrown : s.thrown = none := by simpa using hSome
      rcases hAnswered hThrown with ⟨hHead, hTail⟩
      have hEffect := onEvent_effect (c := c) hHead
      rcases hRead with ⟨e', hMem, hNow⟩
      rcases List.mem_cons.mp hMem with rfl | hLater
      · have hKept (s s' : Exchange) (e : Event)
            (hSmall : s.buffer ≤ n) (_ : True)
            (_ : s.thrown = none) (hStep : Effect s s' e) :
            s'.buffer ≤ n :=
          hStep.shrinks.trans hSmall
        exact
          onEvents_kept hKept es _ (hEffect.cut n hNow) hTail
            fun _ _ => trivial
      · exact buffer_onEvents hTail ⟨e', hLater, hNow⟩

/- And so does the whole loop up to any point. -/
theorem buffer_exchangeData
    {n : Nat} :
    ∀ {batches : List (List Event)} {s : Exchange},
      (exchangeData c).Legal s batches →
      (∃ e ∈ handled c s batches, e.stdinRead = some n) →
      ((exchangeData c).run s batches).buffer ≤ n
| [], _, _, hRead => by
    rcases hRead with ⟨e, hMem, -⟩
    exact absurd hMem List.not_mem_nil
| es :: batches, s, hLegal, hRead => by
    rcases hRead with ⟨e, hMem, hNow⟩
    unfold handled at hMem
    rcases List.mem_append.mp hMem with hHere | hLater
    · by_cases hRuns : (s.running && s.thrown.isNone) = true
      · rw [if_pos hRuns] at hHere
        have hStep :
            ((exchangeData c).step s es).buffer ≤ n := by
          change
            (if s.running && s.thrown.isNone then
                s.onEvents c es
              else s).buffer ≤ n
          rw [if_pos hRuns]
          exact buffer_onEvents hLegal.1.2.2 ⟨e, hHere, hNow⟩
        have hKept (s s' : Exchange) (e : Event)
            (hSmall : s.buffer ≤ n) (_ : True)
            (_ : s.thrown = none) (hEffect : Effect s s' e) :
            s'.buffer ≤ n :=
          hEffect.shrinks.trans hSmall
        exact
          exchangeData_kept (fun _ => True) hKept hStep
            hLegal.2 fun _ _ _ _ => trivial
      · rw [if_neg hRuns] at hHere
        exact absurd hHere List.not_mem_nil
    · have hRest :
          ∃ e ∈ handled c ((exchangeData c).step s es) batches,
            e.stdinRead = some n :=
        ⟨e, hLater, hNow⟩
      exact @buffer_exchangeData n batches _ hLegal.2 hRest

theorem Moved.sublist
    {room : Nat} {complete : Prop}
    {rest got rest' got' : List Byte}
    (hMoved : Moved room complete rest got rest' got') :
    (got' ++ rest').Sublist (got ++ rest) := by
  rcases hMoved with ⟨took, gave, -, rfl, rfl, -⟩
  rw [List.append_assoc]
  apply List.Sublist.append_left
  conv => rhs; rw [← List.take_append_drop took rest]
  exact (List.take_sublist gave _).append_right _

theorem Moved.complete
    {room : Nat} {complete : Prop}
    {rest got rest' got' : List Byte}
    (hMoved : Moved room complete rest got rest' got')
    (hComplete : complete) :
    got' ++ rest' = got ++ rest := by
  rcases hMoved with ⟨took, gave, -, rfl, rfl, hAll⟩
  rw [hAll hComplete, List.take_take, Nat.min_self,
    List.append_assoc, List.take_append_drop]

/- Without room nothing can be read. -/
theorem Moved.still
    {room : Nat} {complete : Prop}
    {rest got rest' got' : List Byte}
    (hMoved : Moved room complete rest got rest' got')
    (hNoRoom : room = 0) :
    rest' = rest ∧ got' = got := by
  rcases hMoved with ⟨took, gave, hRoom, rfl, rfl, -⟩
  have hNothing : took = 0 := by omega
  simp [hNothing]

theorem Moved.nil
    {room : Nat} {complete : Prop}
    {got rest' got' : List Byte}
    (hMoved : Moved room complete [] got rest' got') :
    rest' = [] := by
  rcases hMoved with ⟨took, gave, -, rfl, -, -⟩
  exact List.drop_nil

/-
  What holds of an exchange of these data: nothing is
  forwarded twice, out of order or that was not sent.
-/
structure Forwards
    (stdin peer : List Byte) (s : Exchange) : Prop where
  input : (s.toSocket ++ s.stdin).Sublist stdin
  output : (s.toStdout ++ s.peer).Sublist peer
  eof : s.buffer = 0 → s.stdin = []
  ended :
    s.running = false → s.thrown = none →
      s.buffer = 0 ∨ s.peer = []

theorem forwards_start
    (c : SocketConfig) (stdin peer : List Byte) :
    Forwards stdin peer (.start c stdin peer) where
  input := List.Sublist.refl _
  output := List.Sublist.refl _
  eof hZero := by cases hZero
  ended hEnded := by cases hEnded

theorem Forwards.step
    {stdin peer : List Byte} {s s' : Exchange} {e : Event}
    (hForwards : Forwards stdin peer s)
    (hThrown : s.thrown = none)
    (hEffect : Effect s s' e) :
    Forwards stdin peer s' where
  input := hEffect.input.sublist.trans hForwards.input
  output := hEffect.output.sublist.trans hForwards.output
  eof := by
    intro hZero
    rcases hEffect.eof hZero with hBefore | hNow
    · have hInput := hEffect.input
      rw [hForwards.eof hBefore] at hInput
      exact hInput.nil
    · exact hNow
  ended := by
    intro hEnded hNone
    rcases hEffect.ended hEnded hNone with
      hBefore | hNow
    · rcases hForwards.ended hBefore hThrown with
        hZero | hPeer
      · exact
          Or.inl (Nat.le_zero.mp (hZero ▸ hEffect.shrinks))
      · have hOutput := hEffect.output
        rw [hPeer] at hOutput
        exact Or.inr hOutput.nil
    · exact hNow

/- Nothing of the data is lost. -/
def Complete
    (stdin peer : List Byte) (s : Exchange) : Prop :=
  s.thrown = none →
    s.toSocket ++ s.stdin = stdin ∧
      s.toStdout ++ s.peer = peer

theorem Complete.step
    {stdin peer : List Byte} {s s' : Exchange} {e : Event}
    (hComplete : Complete stdin peer s)
    (hThrown : s.thrown = none) (hAll : e.WritesAll)
    (hEffect : Effect s s' e) :
    Complete stdin peer s' := by
  intro hNone
  rcases hComplete hThrown with ⟨hInput, hOutput⟩
  constructor
  · rw [hEffect.input.complete ⟨hNone, hAll⟩, hInput]
  · rw [hEffect.output.complete ⟨hNone, hAll⟩, hOutput]

/- What an exchange in the state `t` can still become. -/
structure Later (t s : Exchange) : Prop where
  shrinks : s.buffer ≤ t.buffer
  still :
    t.buffer = 0 →
      s.stdin = t.stdin ∧ s.toSocket = t.toSocket ∧
        s.peer = t.peer ∧ s.toStdout = t.toStdout

theorem Later.step
    {t s s' : Exchange} {e : Event}
    (hLater : Later t s) (hEffect : Effect s s' e) :
    Later t s' where
  shrinks := hEffect.shrinks.trans hLater.shrinks
  still := by
    intro hZero
    have hNoRoom : s.buffer = 0 :=
      Nat.le_zero.mp (hZero ▸ hLater.shrinks)
    rcases hLater.still hZero with
      ⟨hStdin, hSocket, hPeer, hStdout⟩
    rcases hEffect.input.still hNoRoom with
      ⟨hStdin', hSocket'⟩
    rcases hEffect.output.still hNoRoom with
      ⟨hPeer', hStdout'⟩
    exact
      ⟨hStdin'.trans hStdin, hSocket'.trans hSocket,
        hPeer'.trans hPeer, hStdout'.trans hStdout⟩

/-
  In every exchange over a stream both sides get what the
  other sent in order, and all of it where the writes take
  all and nothing throws. It ends by itself only if one
  side is at its end. But the buffer is cut to the size of
  each read from the standard input and never grows, so that
  it has no room left after the end of the input, a read of
  nothing: from there nothing that the peer sends is read any
  more.
-/
theorem exchanged
    (c : SocketConfig) (stdin peer : List Byte)
    (before after : List (List Event))
    (hLegal :
      (exchangeData c).Legal (.start c stdin peer)
        (before ++ after)) :
    let t := (exchangeData c).run (.start c stdin peer) before
    let s := (exchangeData c).run t after
    (s.toSocket ++ s.stdin).Sublist stdin ∧
      (s.toStdout ++ s.peer).Sublist peer ∧
      ((∀ es ∈ before ++ after, ∀ e ∈ es, e.WritesAll) →
        s.thrown = none →
          s.toSocket ++ s.stdin = stdin ∧
            s.toStdout ++ s.peer = peer) ∧
      (s.running = false → s.thrown = none →
        s.buffer = 0 ∧ s.stdin = [] ∨ s.peer = []) ∧
      s.buffer ≤ t.buffer ∧
      (∀ n,
        (∃ e ∈ handled c (.start c stdin peer) before,
            e.stdinRead = some n) →
          t.buffer ≤ n) ∧
      (t.buffer = 0 →
        s.stdin = [] ∧ s.toSocket = t.toSocket ∧
          s.peer = t.peer ∧ s.toStdout = t.toStdout) := by
  intro t s
  have hAppend :
      (exchangeData c).run (.start c stdin peer)
        (before ++ after) = s :=
    Machine.run_append before after _
  have hAfter : (exchangeData c).Legal t after :=
    ((Machine.legal_append before after _).mp hLegal).2
  have hForwards : Forwards stdin peer s := by
    rw [← hAppend]
    exact
      exchangeData_kept (fun _ => True)
        (fun _ _ _ hKept _ => hKept.step)
        (forwards_start c stdin peer) hLegal
        (fun _ _ _ _ => trivial)
  have hComplete
      (hAll :
        ∀ es ∈ before ++ after, ∀ e ∈ es, e.WritesAll) :
      Complete stdin peer s := by
    rw [← hAppend]
    exact
      exchangeData_kept Event.WritesAll
        (fun _ _ _ hKept hGood hThrown =>
          hKept.step hThrown hGood)
        (fun _ => ⟨rfl, rfl⟩) hLegal hAll
  have hLater : Later t s :=
    exchangeData_kept (fun _ => True)
      (fun _ _ _ hKept _ _ => hKept.step)
      ⟨Nat.le_refl _, fun _ => ⟨rfl, rfl, rfl, rfl⟩⟩ hAfter
      (fun _ _ _ _ => trivial)
  refine
    ⟨hForwards.input, hForwards.output, hComplete, ?_,
      hLater.shrinks, ?_, ?_⟩
  · intro hEnded hNone
    rcases hForwards.ended hEnded hNone with hZero | hPeer
    · exact Or.inl ⟨hZero, hForwards.eof hZero⟩
    · exact Or.inr hPeer
  · intro n hRead
    have hBefore :=
      ((Machine.legal_append before after _).mp hLegal).1
    exact buffer_exchangeData hBefore hRead
  · intro hZero
    rcases hLater.still hZero with ⟨-, hRest⟩
    have hNoRoom : s.buffer = 0 :=
      Nat.le_zero.mp (hZero ▸ hLater.shrinks)
    exact ⟨hForwards.eof hNoRoom, hRest⟩

/-
  One byte is sent, the input ends, and the connection is
  closed while two bytes of the peer are still to come.
-/
theorem exchanged_halfClosed :
    let t :=
      (exchangeData {}).run (.start {} [1] [2, 3])
        [[.stdin (.ok 1) (.ok 1) (.ok ()) (.ok ())],
          [.stdin (.ok 0) (.ok 0) (.ok ()) (.ok ())]]
    let s :=
      (exchangeData {}).run t [[.socket (.ok 0) (.ok 0)]]
    s.running = false ∧ t.buffer = 0 ∧ s.peer = [2, 3] ∧
      s.toStdout = [] ∧ s.toSocket = [1] := by
  intro t s
  have hLegal :
      (exchangeData {}).Legal (.start {} [1] [2, 3])
        ([[.stdin (.ok 1) (.ok 1) (.ok ()) (.ok ())],
            [.stdin (.ok 0) (.ok 0) (.ok ()) (.ok ())]] ++
          [[.socket (.ok 0) (.ok 0)]]) := by
    simp [Machine.Legal, exchangeData, Exchange.start,
      AllAnswered, Answered, Reads, Event.monitored,
      Exchange.onEvents, Exchange.onEvent,
      Exchange.endOfInput, SocketConfig.useStream,
      SocketConfig.useDgram, bufsiz]
  have hStill :=
    (exchanged {} [1] [2, 3] _ _ hLegal).2.2.2.2.2.2 rfl
  exact ⟨rfl, rfl, hStill.2.2.1, hStill.2.2.2, hStill.2.1⟩

end NetCat

end Cosmos
