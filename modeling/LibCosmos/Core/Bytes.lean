import LibCosmos.Foundation.Packing

/-
  Integers as they are stored in memory and passed between
  processes.

  Main declarations:
    * `intBytes`, `uintBytes`
-/

namespace Cosmos

/- A little-endian `int`. -/
def intBytes : Packing Int32 where
  size := 4
  encode n := Buffer.leBytes 4 n.toUInt32.toNat
  decode bs := (UInt32.ofNat (Buffer.leValue bs)).toInt32
  size_pos := by simp
  size_encode n := by simp
  decode_encode n := by
    have hFits := n.toUInt32.toNat_lt
    rw [Buffer.leValue_leBytes_of_lt hFits,
      UInt32.ofNat_toNat, Int32.toInt32_toUInt32]

/- A little-endian `unsigned int`. -/
def uintBytes : Packing UInt32 where
  size := 4
  encode n := Buffer.leBytes 4 n.toNat
  decode bs := UInt32.ofNat (Buffer.leValue bs)
  size_pos := by simp
  size_encode n := by simp
  decode_encode n := by
    have hFits := n.toNat_lt
    rw [Buffer.leValue_leBytes_of_lt hFits,
      UInt32.ofNat_toNat]

end Cosmos
