import LibCosmos.Core.BitMask
import LibCosmos.Core.Split
import LibCosmos.Foundation.Unions

/-
  The text of the flags for opening a file
  (`include/formatters.hxx`, `src/fs/types.cxx`).

  Some flags contain others: `SYNC` has the bit of `DSYNC`,
  and `TMPFILE` the one of `DIRECTORY`. Also bits that no
  flag has can be set.

  Main declarations:
    * `OpenFlags.getLabel`, `OpenFlags.format`
    * `OpenFlags.parse`
    * `OpenFlags.format_parsed`
-/

namespace Cosmos

------------------------------------------------------------
-- Flags and Labels
------------------------------------------------------------

namespace OpenFlag

def append : BitVec 32 := 0o2000#32
def async : BitVec 32 := 0o20000#32
def cloexec : BitVec 32 := 0o2000000#32
def create : BitVec 32 := 0o100#32
def direct : BitVec 32 := 0o40000#32
def directory : BitVec 32 := 0o200000#32
def dsync : BitVec 32 := 0o10000#32
def exclusive : BitVec 32 := 0o200#32
def noatime : BitVec 32 := 0o1000000#32
def noControllingTTY : BitVec 32 := 0o400#32
def nofollow : BitVec 32 := 0o400000#32
def nonblock : BitVec 32 := 0o4000#32
def path : BitVec 32 := 0o10000000#32
def sync : BitVec 32 := 0o4010000#32
def tmpfile : BitVec 32 := 0o20200000#32
def truncate : BitVec 32 := 0o1000#32

end OpenFlag

namespace OpenFlags

open OpenFlag

/- `get_label`. -/
def getLabel (flag : BitVec 32) : Str :=
  if flag = append then str "APPEND"
  else if flag = async then str "ASYNC"
  else if flag = cloexec then str "CLOEXEC"
  else if flag = create then str "CREATE"
  else if flag = direct then str "DIRECT"
  else if flag = directory then str "DIRECTORY"
  else if flag = dsync then str "DSYNC"
  else if flag = exclusive then str "EXCLUSIVE"
  else if flag = noatime then str "NOATIME"
  else if flag = noControllingTTY then
    str "NO_CONTROLLING_TTY"
  else if flag = nofollow then str "NOFOLLOW"
  else if flag = nonblock then str "NONBLOCK"
  else if flag = path then str "PATH"
  else if flag = sync then str "SYNC"
  else if flag = tmpfile then str "TMPFILE"
  else if flag = truncate then str "TRUNCATE"
  else str "???"

/- The flags of the loop. -/
def order : List (BitVec 32) :=
  [append, async, cloexec, create, direct, directory, dsync,
    exclusive, noatime, noControllingTTY, nofollow, nonblock,
    path, sync, tmpfile, truncate]

/- The loop of the formatter. -/
def formatLoop (flags : BitMask 32) :
    List (BitVec 32) → Str → Bool → Except Exn Str
| [], out, _ => .ok out
| flag :: rest, out, first => do
    if ← flags.test flag then
      formatLoop flags rest
        (out ++ (if first then [] else str "|") ++
          getLabel flag)
        false
    else formatLoop flags rest out first

/- The formatter of `OpenFlags`. -/
def format (flags : BitMask 32) : Except Exn Str :=
  formatLoop flags order [] true

/- The flag with a label. -/
def flagOf (label : Str) : Option (BitVec 32) :=
  order.find? fun flag => getLabel flag = label

/- The separator of the labels. -/
def bar : Split.Separator where
  chars := str "|"
  nonempty := by decide

/- What a text of labels means, cut with `split`. -/
def parse (text : Split.View) :
    Except Exn (Option (BitMask 32)) := do
  let labels ←
    Split.split Split.isspaceC text bar ⟨false, false⟩ 0
  .ok ((labels.mapM flagOf).map BitMask.ofList)

/- The flags that are printed. -/
def shown (flags : BitMask 32) : List (BitVec 32) :=
  order.filter fun flag =>
    BitMask.bits flag ⊆ flags.positions

------------------------------------------------------------
-- The Loop
------------------------------------------------------------

/- Labels with a bar in front of all but a first one. -/
def joined : Bool → List Str → Str
| _, [] => []
| first, label :: labels =>
    (if first then [] else str "|") ++ label ++
      joined false labels

theorem joined_true (labels : List Str) :
    joined true labels = (str "|").intercalate labels := by
  cases labels with
  | nil => rfl
  | cons label labels =>
      induction labels generalizing label with
      | nil => simp [joined]
      | cons next labels ih =>
          rw [List.intercalate_cons_of_ne_nil
            (List.cons_ne_nil next labels), ← ih next]
          simp [joined]

theorem formatLoop_eq
    (flags : BitMask 32) {rest : List (BitVec 32)}
    (hBits : ∀ flag ∈ rest, flag ≠ 0)
    (out : Str) (first : Bool) :
    formatLoop flags rest out first =
      .ok
        (out ++
          joined first
            ((rest.filter fun flag =>
              BitMask.bits flag ⊆ flags.positions).map
                getLabel)) := by
  induction rest generalizing out first with
  | nil => simp [formatLoop, joined]
  | cons flag rest ih =>
      have hTest :=
        BitMask.test_eq flags (hBits flag List.mem_cons_self)
      have hRest := ih fun f hMem =>
        hBits f (List.mem_cons_of_mem flag hMem)
      simp only [formatLoop, hTest, hRest]
      by_cases hSet : BitMask.bits flag ⊆ flags.positions
      · rw [List.filter_cons_of_pos (by simpa using hSet),
          List.map_cons, joined, ← List.append_assoc,
          ← List.append_assoc]
        simp only [hSet, decide_true]
        rfl
      · rw [List.filter_cons_of_neg (by simpa using hSet)]
        simp only [hSet, decide_false]
        rfl

theorem order_ne_zero : ∀ flag ∈ order, flag ≠ 0 := by
  simp [order, append, async, cloexec, create, direct,
    directory, dsync, exclusive, noatime, noControllingTTY,
    nofollow, nonblock, path, sync, tmpfile, truncate]

theorem format_eq (flags : BitMask 32) :
    format flags =
      .ok
        ((str "|").intercalate
          ((shown flags).map getLabel)) := by
  rw [format, formatLoop_eq flags order_ne_zero,
    List.nil_append, joined_true]
  rfl

------------------------------------------------------------
-- The Labels
------------------------------------------------------------

theorem map_getLabel :
    order.map getLabel =
      [str "APPEND", str "ASYNC", str "CLOEXEC", str "CREATE",
        str "DIRECT", str "DIRECTORY", str "DSYNC",
        str "EXCLUSIVE", str "NOATIME",
        str "NO_CONTROLLING_TTY", str "NOFOLLOW",
        str "NONBLOCK", str "PATH", str "SYNC",
        str "TMPFILE", str "TRUNCATE"] :=
  rfl

theorem nodup_getLabel : (order.map getLabel).Nodup := by
  rw [map_getLabel]
  simp [str]

theorem getLabel_ne_nil :
    ∀ label ∈ order.map getLabel, label ≠ [] := by
  rw [map_getLabel]
  simp [str]

theorem bar_notMem_getLabel :
    ∀ label ∈ order.map getLabel,
      (124 : Byte) ∉ label := by
  rw [map_getLabel]
  simp [str]

theorem flagOf_getLabel
    {flag : BitVec 32} (hOrder : flag ∈ order) :
    flagOf (getLabel flag) = some flag := by
  have hFound : (flagOf (getLabel flag)).isSome := by
    rw [flagOf, List.find?_isSome]
    exact ⟨flag, hOrder, by simp⟩
  rcases Option.isSome_iff_exists.mp hFound with
    ⟨found, hSome⟩
  have hMem := List.mem_of_find?_eq_some hSome
  have hLabel : getLabel found = getLabel flag := by
    simpa using List.find?_some hSome
  rw [hSome,
    List.inj_on_of_nodup_map nodup_getLabel hMem hOrder
      hLabel]

theorem mem_order_of_shown
    {flags : BitMask 32} {flag : BitVec 32}
    (hShown : flag ∈ shown flags) :
    flag ∈ order :=
  (List.mem_filter.mp hShown).1

theorem mapM_flagOf
    {printed : List (BitVec 32)}
    (hOrder : ∀ flag ∈ printed, flag ∈ order) :
    (printed.map getLabel).mapM flagOf = some printed := by
  induction printed with
  | nil => rfl
  | cons flag printed ih =>
      have hFlag :=
        flagOf_getLabel (hOrder flag List.mem_cons_self)
      have hRest := ih fun f hMem =>
        hOrder f (List.mem_cons_of_mem flag hMem)
      rw [List.map_cons, List.mapM_cons, hFlag, hRest]
      rfl

/- No text is longer than all the labels together. -/
theorem length_joined_le
    {few all : List Str} (hFew : few.Sublist all)
    (first : Bool) :
    (joined first few).length ≤ (joined false all).length := by
  induction hFew generalizing first with
  | slnil => exact Nat.le_refl _
  | cons label _ ih =>
      refine (ih first).trans ?_
      simp only [joined, List.length_append]
      omega
  | cons_cons label _ ih =>
      have hRest := ih false
      cases first with
      | true => simp [joined]; omega
      | false => simp [joined]; omega

theorem length_joined_lt (flags : BitMask 32) :
    ((str "|").intercalate
      ((shown flags).map getLabel)).length < Split.npos := by
  have hSublist :
      ((shown flags).map getLabel).Sublist
        (order.map getLabel) :=
    List.filter_sublist.map getLabel
  have hAll :
      (joined false (order.map getLabel)).length = 133 := by
    rw [map_getLabel]
    simp [joined, str]
  have hShort := length_joined_le hSublist true
  rw [hAll, joined_true] at hShort
  exact hShort.trans_lt (by decide)

------------------------------------------------------------
-- Reading the Text
------------------------------------------------------------

/- The text of some flags. -/
def textOf (flags : BitMask 32) : Split.View where
  chars := (str "|").intercalate ((shown flags).map getLabel)
  size_lt := length_joined_lt flags

theorem visible_labels
    {labels : List Str} (hSome : ∀ l ∈ labels, l ≠ []) :
    Split.visible Split.isspaceC ⟨false, false⟩ labels =
      labels := by
  have hPart :
      Split.part Split.isspaceC ⟨false, false⟩ = id := rfl
  unfold Split.visible
  rw [hPart, List.map_id, List.filter_eq_self]
  intro label hMem
  simpa using hSome label hMem

/- `split` finds the labels that were joined. -/
theorem split_textOf (flags : BitMask 32) :
    Split.split Split.isspaceC (textOf flags) bar
        ⟨false, false⟩ 0 =
      .ok ((shown flags).map getLabel) := by
  have hBar :
      ∀ l ∈ (shown flags).map getLabel, (124 : Byte) ∉ l := by
    intro l hMem
    rcases List.mem_map.mp hMem with ⟨flag, hShown, rfl⟩
    exact
      bar_notMem_getLabel _
        (List.mem_map_of_mem (mem_order_of_shown hShown))
  have hSome :
      ∀ l ∈ (shown flags).map getLabel, l ≠ [] := by
    intro l hMem
    rcases List.mem_map.mp hMem with ⟨flag, hShown, rfl⟩
    exact
      getLabel_ne_nil _
        (List.mem_map_of_mem (mem_order_of_shown hShown))
  rw [Split.split_visible _ _ _ _ (by decide)]
  by_cases hNone : (shown flags).map getLabel = []
  · have hText : (textOf flags).chars = [] :=
      congrArg (str "|").intercalate hNone
    rw [hText, hNone]
    rfl
  · have hPieces :=
      Pieces.pieces_intercalate hNone hBar
        (Pieces.length_le_intercalate 124 _)
    have hText :
        Pieces.pieces bar.chars (textOf flags).chars.length
            (textOf flags).chars =
          (shown flags).map getLabel := hPieces
    rw [hText, visible_labels hSome]

------------------------------------------------------------
-- The Meaning of the Text
------------------------------------------------------------

/- The names, as sets of bits. -/
def table : Finset (Finset Nat) :=
  (order.map BitMask.bits).toFinset

theorem positions_ofList (flags : List (BitVec 32)) :
    (BitMask.ofList flags).positions =
      (flags.map BitMask.bits).toFinset.sup id := by
  ext i
  rw [BitMask.mem_positions_ofList, Finset.mem_sup]
  simp

theorem positions_shown (flags : BitMask 32) :
    (BitMask.ofList (shown flags)).positions =
      Unions.named table flags.positions := by
  rw [positions_ofList, Unions.named]
  congr 1
  ext name
  simp only [shown, table, List.mem_toFinset, List.mem_map,
    List.mem_filter, Finset.mem_filter, decide_eq_true_eq]
  constructor
  · rintro ⟨flag, ⟨hOrder, hSub⟩, rfl⟩
    exact ⟨⟨flag, hOrder, rfl⟩, hSub⟩
  · rintro ⟨⟨flag, hOrder, rfl⟩, hSub⟩
    exact ⟨flag, ⟨hOrder, hSub⟩, rfl⟩

theorem eq_of_positions
    {a b : BitMask 32}
    (hSame : a.positions = b.positions) :
    a = b :=
  congrArg BitMask.mk (BitMask.bits_inj.mp hSame)

/- Nothing is lost of the unions of flags. -/
theorem ofList_shown_iff (flags : BitMask 32) :
    BitMask.ofList (shown flags) = flags ↔
      ∃ set : List (BitVec 32),
        (∀ flag ∈ set, flag ∈ order) ∧
          BitMask.ofList set = flags := by
  constructor
  · intro hSame
    exact
      ⟨shown flags, fun _ hMem => mem_order_of_shown hMem,
        hSame⟩
  · rintro ⟨set, hOrder, rfl⟩
    apply eq_of_positions
    rw [positions_shown, Unions.named_eq_self_iff]
    refine
      ⟨(set.map BitMask.bits).toFinset, ?_,
        (positions_ofList set).symm⟩
    intro name hName
    simp only [List.mem_toFinset, List.mem_map] at hName
    rcases hName with ⟨flag, hMem, rfl⟩
    exact
      List.mem_toFinset.mpr
        (List.mem_map_of_mem (hOrder flag hMem))

theorem shown_eq_iff (a b : BitMask 32) :
    shown a = shown b ↔
      ∀ flag ∈ order, a.test flag = b.test flag := by
  have hTest (flag : BitVec 32) (hOrder : flag ∈ order) :
      a.test flag = b.test flag ↔
        (flag ∈ shown a ↔ flag ∈ shown b) := by
    have hBit := order_ne_zero flag hOrder
    rw [BitMask.test_eq a hBit, BitMask.test_eq b hBit]
    simp [shown, hOrder]
  constructor
  · intro hSame flag hOrder
    rw [hTest flag hOrder, hSame]
  · intro hTests
    unfold shown
    apply List.filter_congr
    intro flag hOrder
    have hMem := (hTest flag hOrder).mp (hTests flag hOrder)
    simpa [shown, hOrder] using hMem

/- The text tells all flags that are printed. -/
theorem format_eq_iff (a b : BitMask 32) :
    format a = format b ↔ shown a = shown b := by
  constructor
  · intro hSame
    rw [format_eq, format_eq, Except.ok.injEq] at hSame
    have hText : textOf a = textOf b := by
      simp only [textOf, hSame]
    have hLabels := split_textOf a
    rw [hText, split_textOf b, Except.ok.injEq] at hLabels
    have hFlags (flags : BitMask 32) :
        ((shown flags).map getLabel).mapM flagOf =
          some (shown flags) :=
      mapM_flagOf fun _ hMem => mem_order_of_shown hMem
    have hFlagsA := hFlags a
    rw [← hLabels, hFlags b] at hFlagsA
    exact (Option.some.inj hFlagsA).symm
  · intro hSame
    rw [format_eq, format_eq, hSame]

/-
  The text of any flags can be cut at the bars and read
  again. What comes back is the union of the flags that are
  set as a whole: everything, iff the mask is a union of
  flags. Two masks have the same text iff no flag tells
  them apart.
-/
theorem format_parsed (flags : BitMask 32) :
    ∃ text read,
      format flags = .ok text.chars ∧
        parse text = .ok (some read) ∧
        read.positions =
          Unions.named table flags.positions ∧
        (read = flags ↔
          ∃ set : List (BitVec 32),
            (∀ flag ∈ set, flag ∈ order) ∧
              BitMask.ofList set = flags) ∧
        ∀ others,
          format others = .ok text.chars ↔
            ∀ flag ∈ order,
              others.test flag = flags.test flag := by
  refine
    ⟨textOf flags, .ofList (shown flags), format_eq flags,
      ?_, positions_shown flags, ofList_shown_iff flags, ?_⟩
  · have hRead :
        ((shown flags).map getLabel).mapM flagOf =
          some (shown flags) :=
      mapM_flagOf fun _ hMem => mem_order_of_shown hMem
    have hOk :
        parse (textOf flags) =
          .ok
            ((((shown flags).map getLabel).mapM
              flagOf).map BitMask.ofList) := by
      unfold parse
      rw [split_textOf]
      rfl
    rw [hOk, hRead]
    rfl
  · intro others
    rw [← shown_eq_iff, ← format_eq_iff, format_eq flags]
    rfl

end OpenFlags

end Cosmos
