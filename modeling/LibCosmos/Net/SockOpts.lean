import LibCosmos.Proc.Groups

/-
  Socket options of variable length
  (`cosmos/private/sockopts.hxx`, `src/net/SockOptBase.cxx`,
  `src/net/SocketOptions.cxx`,
  `src/net/unix/UnixOptions.cxx`).

  Lengths are numbers, and a length of zero that is lowered
  wraps around to the largest value of its type.

  Main declarations:
    * `SockOpts.getPeerSec`, `SockOpts.getStringOption`
    * `SockOpts.bindToDevice`, `SockOpts.boundDevice`
    * `SockOpts.supplementaryGroups`
    * `SockOpts.Kept`, `SockOpts.Served`
    * `SockOpts.kept_iff`
-/

namespace Cosmos

namespace SockOpts

------------------------------------------------------------
-- System Calls
------------------------------------------------------------

/- `n - 1` for an unsigned type of that many bits. -/
def decrement (bits n : Nat) : Nat :=
  if n = 0 then 2 ^ bits - 1 else n - 1

/-
  `::getsockopt` for an option with this value: the result,
  the length that it reports, and the buffer.
-/
def sysGetsockopt {α : Type}
    (answer : Sys (List α)) (buf : List α) :
    Sys Unit × Nat × List α :=
  match answer with
  | .error e => (.error e, buf.length, buf)
  | .ok value =>
      if value.length ≤ buf.length then
        (.ok (), value.length, Buffer.write buf 0 value)
      else (.error .range, value.length, buf)

/-
  `ApiError{label}` and `RangeError{label, length}`. The
  second one comes from the overload for values of a fixed
  size only.
-/
inductive Thrown where
| apiError (e : Errno) (label : Str)
| rangeError (requiredLength : Nat) (label : Str)
deriving DecidableEq, Repr

/- `getsockopt(sock, lvl, name, T *, socklen_t *)`. -/
def getsockoptInOut {α : Type}
    (answer : Sys (List α)) (buf : List α) :
    Except Thrown Unit × Nat × List α :=
  match sysGetsockopt answer buf with
  | (.ok (), len, buf) => (.ok (), len, buf)
  | (.error e, len, buf) =>
      (.error (.apiError e (str "getsockopt()")), len, buf)

/- `getsockopt(sock, lvl, name, T *, socklen_t)`. -/
def getsockoptPtr {α : Type}
    (answer : Sys (List α)) (buf : List α) :
    Except Thrown Nat × List α :=
  match getsockoptInOut answer buf with
  | (.ok (), len, buf) => (.ok len, buf)
  | (.error ex, _, buf) => (.error ex, buf)

------------------------------------------------------------
-- Security Labels
------------------------------------------------------------

/- `cosmos::max::NAME`. -/
def maxName : Nat := 255

/-
  `ret[i]` of a string, which has a NUL character behind its
  end; further behind there is nothing to read.
-/
def charAt (s : Str) (i : Nat) : Option Byte :=
  if i = s.length then some 0 else s[i]?

/-
  `getPeerSec`. There is no result if a byte outside of the
  string is read.
-/
def getPeerSec :
    Rounds (Sys Str) Str (Option (Except Thrown Str)) where
  round answer ret :=
    match getsockoptPtr answer ret with
    | (.ok length, ret) =>
        match charAt ret (decrement 32 length) with
        | none => .stop none
        | some c =>
            -- it may be terminated
            let length :=
              if c = 0 then decrement 32 length else length
            .stop (some (.ok (Buffer.resize 0 ret length)))
    | (.error (.rangeError required label), ret) =>
        if required = 0 ∨ required < ret.length then
          .stop
            (some (.error (.rangeError required label)))
        else .next (Buffer.resize 0 ret ret.length)
    | (.error (.apiError e label), _) =>
        .stop (some (.error (.apiError e label)))

/- The string that the loop starts with. -/
def peerSecStart : Str :=
  Buffer.resize 0 [] maxName

/-
  A label, which does not end in a NUL character, and
  whether the kernel puts one behind it.
-/
structure Label where
  text : Str
  terminated : Bool
  bare : text.getLast? ≠ some 0

def Label.value (label : Label) : Str :=
  label.text ++ if label.terminated then [0] else []

------------------------------------------------------------
-- Network Devices
------------------------------------------------------------

/- `IFNAMSIZ`. -/
def maxNetInterfaceName : Nat := 16

/- The device that a socket is bound to. -/
structure Socket where
  device : Option Str
deriving DecidableEq, Repr

/- The name of a network interface. -/
structure IfName where
  text : Str
  nonempty : text ≠ []
  short : text.length < maxNetInterfaceName
  free : 0 ∉ text

/- What `getsockopt(SO_BINDTODEVICE)` shows. -/
def Socket.deviceValue (s : Socket) : Str :=
  match s.device with
  | none => []
  | some name => name ++ [0]

/- `setStringOption`, for `SO_BINDTODEVICE`. -/
def setStringOption (text : Str) (answer : Sys Unit) :
    Method Socket Unit :=
  match answer with
  | .error e => throwApi e "setsockopt()"
  | .ok () =>
      Command.modify fun s =>
        { s with
          device := if text = [] then none else some text }

def bindToDevice (ifname : Str) (answer : Sys Unit) :
    Method Socket Unit :=
  setStringOption ifname answer

/- `std::string::resize` with the limit of its size. -/
def resizeChecked {σ : Type} (s : Str) (n : Nat) :
    Method σ Str :=
  if n < 2 ^ 63 then pure (Buffer.resize 0 s n)
  else
    Command.raise
      (.stdException (str "basic_string::_M_replace_aux"))

/- `getStringOption`. -/
def getStringOption (value : Sys Str) (maxLen : Nat) :
    Method Socket Str :=
  match getsockoptPtr value (List.replicate maxLen 0) with
  | (.ok length, ret) =>
      resizeChecked ret (decrement 64 length)
  | (.error (.apiError e label), _) =>
      Command.raise (.apiError e label)
  | (.error (.rangeError _ label), _) =>
      Command.raise (.apiError .noError label)

def boundDevice (answer : Sys Unit) :
    Method Socket Str := do
  let s ← Command.get
  getStringOption (answer.map fun _ => s.deviceValue)
    maxNetInterfaceName

/- `bindToDevice(name)` followed by `boundDevice()`. -/
def bindAndAsk (ifname : Str) (bind ask : Sys Unit) :
    Method Socket Str := do
  bindToDevice ifname bind
  boundDevice ask

------------------------------------------------------------
-- Groups of the Peer
------------------------------------------------------------

/- The safety limit. -/
def maxGroups : Nat := 128

/-
  `supplementaryGroups`. A group takes four bytes, and the
  length that the kernel reports is in bytes.
-/
def supplementaryGroups :
    Rounds (Sys (List GroupID)) (List GroupID)
      (Except Thrown (List GroupID)) where
  round answer ret :=
    match getsockoptInOut answer ret with
    | (.ok (), count, ret) =>
        let bytes := count * 4
        .stop (.ok (Buffer.resize ⟨0⟩ ret (bytes / 4)))
    | (.error (.apiError e label), count, ret) =>
        let bytes := count * 4
        if e ≠ .range then .stop (.error (.apiError e label))
        else if bytes > maxGroups * 4 then
          .stop (.error (.apiError e label))
        else .next (Buffer.resize ⟨0⟩ ret (bytes / 4))
    | (.error (.rangeError required label), _, _) =>
        -- its `errnum()` is not `ERANGE`
        .stop (.error (.rangeError required label))

def groupsStart : List GroupID :=
  List.replicate 16 ⟨0⟩

------------------------------------------------------------
-- The Promise
------------------------------------------------------------

/- What is asked for. -/
inductive Query where
| peerSec (label : Label)
| unboundDevice
| boundDevice (name : IfName)
| groups (ids : List GroupID)

/- An error of the system call. -/
def apiError (e : Errno) : Thrown :=
  .apiError e (str "getsockopt()")

/-
  The value comes back, and the errors of calls that failed
  for other reasons than the size are thrown. More groups
  than the limit are an error, too.
-/
def Kept : Query → Prop
| .peerSec label =>
    getPeerSec.Settles peerSecStart label.value
      (· ≠ .range)
      (fun answer =>
        some
          ((answer.map fun _ => label.text).mapError
            apiError))
| .unboundDevice =>
    ∀ answer,
      ((boundDevice answer).run ⟨none⟩).1 =
        match answer with
        | .ok () => .returned []
        | .error e =>
            .raised (.apiError e (str "getsockopt()"))
| .boundDevice name =>
    ∀ s bind ask,
      ((bindAndAsk name.text bind ask).run s).1 =
        match bind, ask with
        | .error e, _ =>
            .raised (.apiError e (str "setsockopt()"))
        | .ok (), .error e =>
            .raised (.apiError e (str "getsockopt()"))
        | .ok (), .ok () => .returned name.text
| .groups ids =>
    supplementaryGroups.Settles groupsStart ids
      (· ≠ .range)
      (fun answer =>
        if ids.length ≤ maxGroups then
          answer.mapError apiError
        else
          match answer with
          | .ok _ => .error (apiError .range)
          | .error e => .error (apiError e))

/-
  A label shows at least one byte and fits into the buffer,
  and the socket is bound to a device.
-/
def Served : Query → Prop
| .peerSec label =>
    0 < label.value.length ∧ label.value.length ≤ maxName
| .unboundDevice => False
| .boundDevice _ => True
| .groups _ => True

------------------------------------------------------------
-- Security Labels That Fit
------------------------------------------------------------

theorem ptr_fits
    {α : Type} {value buf : List α}
    (hFits : value.length ≤ buf.length) :
    getsockoptPtr (.ok value) buf =
      (.ok value.length, Buffer.write buf 0 value) := by
  unfold getsockoptPtr getsockoptInOut sysGetsockopt
  simp only [if_pos hFits]

theorem ptr_small
    {α : Type} {value buf : List α}
    (hSmall : buf.length < value.length) :
    getsockoptPtr (.ok value) buf =
      (.error (apiError .range), buf) := by
  unfold getsockoptPtr getsockoptInOut sysGetsockopt apiError
  simp only [if_neg (Nat.not_le.mpr hSmall)]

/- The last byte of what was written into a string. -/
theorem charAt_write
    {value buf : Str} (hPos : 0 < value.length)
    (hFits : value.length ≤ buf.length) :
    charAt (Buffer.write buf 0 value)
        (decrement 32 value.length) =
      value.getLast? := by
  have hRoom : 0 + value.length ≤ buf.length := by omega
  have hLength := Buffer.length_write hRoom
  have hLast :
      decrement 32 value.length = value.length - 1 :=
    if_neg (by omega)
  unfold charAt
  rw [hLast, if_neg (by omega), Buffer.getElem?_write hRoom,
    if_neg (by omega), if_pos (by omega),
    List.getLast?_eq_getElem?, Nat.sub_zero]

/- What a value that fits comes to. -/
theorem round_fits
    {value ret : Str} (hFits : value.length ≤ ret.length) :
    getPeerSec.round (.ok value) ret =
      match
        charAt (Buffer.write ret 0 value)
          (decrement 32 value.length)
      with
      | none => .stop none
      | some c =>
          .stop
            (some
              (.ok
                (Buffer.resize 0 (Buffer.write ret 0 value)
                  (if c = 0 then decrement 32 value.length
                  else value.length)))) := by
  unfold getPeerSec
  simp only [ptr_fits hFits]

theorem Label.length_text_le (label : Label) :
    label.text.length ≤ label.value.length := by
  unfold Label.value
  rw [List.length_append]
  exact Nat.le_add_right _ _

/- The NUL character at the end is left out. -/
theorem round_label
    {label : Label} {ret : Str}
    (hPos : 0 < label.value.length)
    (hFits : label.value.length ≤ ret.length) :
    getPeerSec.round (.ok label.value) ret =
      .stop (some (.ok label.text)) := by
  have hLast :
      decrement 32 label.value.length =
        label.value.length - 1 := if_neg (by omega)
  have hText : ∀ n, n = label.text.length →
      Buffer.resize 0 (Buffer.write ret 0 label.value) n =
        label.text := by
    rintro n rfl
    have hRoom : 0 + label.value.length ≤ ret.length := by
      omega
    have hShort := label.length_text_le
    have hLength := Buffer.length_write hRoom
    rw [Buffer.resize_of_le 0 (by omega)]
    unfold Buffer.write Label.value
    simp
  rw [round_fits hFits, charAt_write hPos hFits, hLast]
  cases hTerminated : label.terminated with
  | true =>
      have hValue : label.value = label.text ++ [0] := by
        simp [Label.value, hTerminated]
      have hCount :
          label.value.length - 1 = label.text.length := by
        simp [hValue]
      have hEnd : label.value.getLast? = some 0 := by
        rw [hValue, List.getLast?_concat]
      simp only [hEnd, if_true, hText _ hCount]
  | false =>
      have hValue : label.value = label.text := by
        simp [Label.value, hTerminated]
      cases hEnd : label.value.getLast? with
      | none =>
          rw [List.getLast?_eq_none_iff] at hEnd
          rw [hEnd] at hPos
          exact absurd hPos (Nat.lt_irrefl 0)
      | some c =>
          have hOther : c ≠ 0 := by
            rintro rfl
            rw [hValue] at hEnd
            exact label.bare hEnd
          simp only [if_neg hOther,
            hText _ (congrArg List.length hValue)]

theorem length_peerSecStart :
    peerSecStart.length = maxName := by
  unfold peerSecStart
  rw [Buffer.length_resize]

/- An empty value: the byte in front of it is read. -/
theorem round_empty
    {ret : Str} (hSize : ret.length < 2 ^ 32 - 1) :
    getPeerSec.round (.ok []) ret = .stop none := by
  have hWritten : Buffer.write ret 0 [] = ret := by
    simp [Buffer.write]
  have hOutside : charAt ret (decrement 32 0) = none := by
    unfold charAt decrement
    rw [if_pos rfl, if_neg (by omega),
      List.getElem?_eq_none (by omega)]
  have hFits : ([] : Str).length ≤ ret.length :=
    Nat.zero_le _
  rw [round_fits hFits, hWritten, List.length_nil, hOutside]

/- A value that does not fit: there is no second try. -/
theorem round_long
    {value ret : Str} (hSmall : ret.length < value.length) :
    getPeerSec.round (.ok value) ret =
      .stop (some (.error (apiError .range))) := by
  unfold getPeerSec
  simp only [ptr_small hSmall]
  rfl

theorem kept_peerSec_iff (label : Label) :
    Kept (.peerSec label) ↔ Served (.peerSec label) := by
  have hStart := length_peerSecStart
  constructor
  · intro hKept
    rcases hKept (fun _ => .ok label.value)
        (fun _ => Or.inl rfl) with
      ⟨n, hEnds, -⟩
    have hBad : ∀ r,
        getPeerSec.round (.ok label.value) peerSecStart =
          .stop r → r = some (.ok label.text) :=
      fun r hStop =>
        (Rounds.eq_of_stop_first _ _ hStop hEnds).symm
    refine ⟨Nat.pos_of_ne_zero fun hNone => ?_, ?_⟩
    · rw [List.length_eq_zero_iff] at hNone
      rw [hNone] at hBad
      have hResult := hBad none (round_empty ?_)
      · cases hResult
      · rw [hStart]
        decide
    · by_contra hLong
      have hResult := hBad _ (round_long ?_)
      · cases hResult
      · rw [hStart]
        exact Nat.not_le.mp hLong
  · rintro ⟨hPos, hShort⟩
    unfold Kept
    refine
      Rounds.settles_of_round _
        (fun ret : Str => ret.length = maxName)
        (fun _ => 0) hStart ?_ ?_
    · intro ret hLength
      left
      rw [round_label hPos (by rw [hLength]; exact hShort)]
      rfl
    · intro ret e _
      rfl

------------------------------------------------------------
-- Devices
------------------------------------------------------------

/- The value of an unbound socket has no NUL character. -/
theorem not_kept_unboundDevice : ¬ Kept .unboundDevice := by
  intro hKept
  have hNone := hKept (.ok ())
  have hRun :
      ((boundDevice (.ok ())).run ⟨none⟩).1 =
        .raised
          (.stdException
            (str "basic_string::_M_replace_aux")) := by
    decide
  rw [hRun] at hNone
  cases hNone

theorem run_boundDevice
    (name : IfName) (ask : Sys Unit) :
    ((boundDevice ask).run ⟨some name.text⟩).1 =
      match ask with
      | .error e => .raised (.apiError e (str "getsockopt()"))
      | .ok () => .returned name.text := by
  cases ask with
  | error e => rfl
  | ok u =>
      have hFits :
          (name.text ++ [0]).length ≤
            (List.replicate maxNetInterfaceName
              (0 : Byte)).length := by
        have hShort := name.short
        rw [List.length_append, List.length_replicate]
        exact hShort
      have hLast :
          decrement 64 (name.text ++ [0]).length =
            name.text.length := by
        unfold decrement
        simp
      have hSmall : name.text.length < 2 ^ 63 := by
        have hShort := name.short
        unfold maxNetInterfaceName at hShort
        omega
      have hText :
          Buffer.resize 0
              (Buffer.write
                (List.replicate maxNetInterfaceName 0) 0
                (name.text ++ [0]))
              name.text.length = name.text := by
        have hRoom : 0 + (name.text ++ [0]).length ≤
            (List.replicate maxNetInterfaceName
              (0 : Byte)).length := by
          omega
        have hLength := Buffer.length_write hRoom
        rw [List.length_append] at hFits
        rw [Buffer.resize_of_le 0 (by omega)]
        simp [Buffer.write]
      unfold boundDevice getStringOption
      simp only [Command.run_bind, Command.run_get,
        Except.map, Socket.deviceValue, ptr_fits hFits,
        hLast, resizeChecked, if_pos hSmall,
        Command.run_pure, hText]

theorem kept_boundDevice (name : IfName) :
    Kept (.boundDevice name) := by
  intro s bind ask
  unfold bindAndAsk bindToDevice setStringOption
  rw [Command.run_bind]
  cases bind with
  | error e => rfl
  | ok u =>
      have hName := run_boundDevice name ask
      simp only [Command.run_modify, if_neg name.nonempty]
      rw [hName]
      cases ask with
      | error e => rfl
      | ok u => rfl

------------------------------------------------------------
-- Groups
------------------------------------------------------------

theorem round_groups_fits
    {ids ret : List GroupID}
    (hFits : ids.length ≤ ret.length) :
    supplementaryGroups.round (.ok ids) ret =
      .stop (.ok ids) := by
  have hRoom : 0 + ids.length ≤ ret.length := by omega
  have hLength := Buffer.length_write hRoom
  have hIds :
      Buffer.resize ⟨0⟩ (Buffer.write ret 0 ids)
          ids.length = ids := by
    rw [Buffer.resize_of_le _ (by omega)]
    simp [Buffer.write]
  unfold supplementaryGroups getsockoptInOut sysGetsockopt
  simp only [if_pos hFits,
    Nat.mul_div_cancel _ (by decide : 0 < 4), hIds]

/- A buffer that is too small grows up to the limit. -/
theorem round_groups_small
    {ids ret : List GroupID}
    (hSmall : ret.length < ids.length) :
    supplementaryGroups.round (.ok ids) ret =
      if ids.length ≤ maxGroups then
        .next (Buffer.resize ⟨0⟩ ret ids.length)
      else .stop (.error (apiError .range)) := by
  unfold supplementaryGroups getsockoptInOut sysGetsockopt
  simp only [if_neg (Nat.not_le.mpr hSmall),
    Nat.mul_div_cancel _ (by decide : 0 < 4)]
  by_cases hLimit : ids.length ≤ maxGroups
  · have hBytes : ¬ ids.length * 4 > maxGroups * 4 := by
      omega
    simp only [ne_eq, not_true_eq_false, if_false,
      if_neg hBytes, if_pos hLimit]
  · have hBytes : ids.length * 4 > maxGroups * 4 := by omega
    simp only [ne_eq, not_true_eq_false, if_false,
      if_pos hBytes, if_neg hLimit]
    rfl

theorem round_groups_error
    {e : Errno} (ret : List GroupID) (hOther : e ≠ .range) :
    supplementaryGroups.round (.error e) ret =
      .stop (.error (apiError e)) := by
  unfold supplementaryGroups getsockoptInOut sysGetsockopt
  simp only [if_pos hOther]
  rfl

theorem kept_groups (ids : List GroupID) :
    Kept (.groups ids) := by
  unfold Kept
  refine
    Rounds.settles_of_round _
      (fun ret : List GroupID =>
        ids.length ≤ maxGroups ∨ ret.length < ids.length)
      (fun ret => ids.length - ret.length) ?_ ?_ ?_
  · by_cases hLimit : ids.length ≤ maxGroups
    · exact Or.inl hLimit
    · right
      unfold maxGroups at hLimit
      unfold groupsStart
      rw [List.length_replicate]
      omega
  · intro ret hRet
    by_cases hFits : ids.length ≤ ret.length
    · left
      have hLimit : ids.length ≤ maxGroups := by omega
      rw [round_groups_fits hFits, if_pos hLimit]
      rfl
    · have hSmall := Nat.not_le.mp hFits
      rw [round_groups_small hSmall]
      by_cases hLimit : ids.length ≤ maxGroups
      · rw [if_pos hLimit]
        refine Or.inr ⟨_, rfl, Or.inl hLimit, ?_⟩
        rw [Buffer.length_resize]
        omega
      · rw [if_neg hLimit, if_neg hLimit]
        exact Or.inl rfl
  · intro ret e hOther
    rw [round_groups_error ret hOther]
    by_cases hLimit : ids.length ≤ maxGroups
    · rw [if_pos hLimit]
      rfl
    · rw [if_neg hLimit]

------------------------------------------------------------
-- Every Query
------------------------------------------------------------

theorem kept_iff (q : Query) : Kept q ↔ Served q := by
  cases q with
  | peerSec label => exact kept_peerSec_iff label
  | unboundDevice =>
      exact ⟨not_kept_unboundDevice, False.elim⟩
  | boundDevice name =>
      exact ⟨fun _ => trivial, fun _ => kept_boundDevice name⟩
  | groups ids =>
      exact ⟨fun _ => trivial, fun _ => kept_groups ids⟩

theorem bare_ones (n : Nat) :
    (List.replicate n (1 : Byte)).getLast? ≠ some 0 := by
  rw [List.getLast?_replicate]
  split
  · simp
  · simp

/- A label of no bytes, one of 256 bytes, and no device. -/
theorem not_kept_edges :
    ¬ Kept (.peerSec ⟨[], false, by decide⟩) ∧
      ¬ Kept
          (.peerSec
            ⟨List.replicate 256 1, false, bare_ones 256⟩) ∧
      ¬ Kept .unboundDevice := by
  refine ⟨?_, ?_, not_kept_unboundDevice⟩
  · rw [kept_peerSec_iff]
    rintro ⟨hPos, -⟩
    exact absurd hPos (by decide)
  · rw [kept_peerSec_iff]
    rintro ⟨-, hShort⟩
    have hText := (Label.length_text_le _).trans hShort
    have hLong : 256 ≤ 255 :=
      (Nat.le_of_eq List.length_replicate.symm).trans hText
    exact absurd hLong (by decide)

end SockOpts

end Cosmos
