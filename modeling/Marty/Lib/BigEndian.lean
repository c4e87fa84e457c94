import Mathlib.Data.List.Induction
import Mathlib.Algebra.Order.Ring.Nat

/-! Slices of bytes, and the big-endian numbers that `struct.unpack` reads from them. -/

namespace Lib.BigEndian

abbrev Bytes := List UInt8

/-- `data[start:stop]` -/
def slice (data : Bytes) (start stop : Nat) : Bytes := (data.drop start).take (stop - start)

def value (data : Bytes) : Nat := data.foldl (fun n b => n * 256 + b.toNat) 0

/-- `struct.unpack` for one number of the width, of 2 or 4 bytes. -/
def unpack (width : Nat) (data : Bytes) : Except String Nat :=
  if data.length = width then .ok (value data)
  else .error ("unpack requires a buffer of " ++ toString width ++ " bytes")

/-- `struct.pack` for one number that fits. -/
def pack : Nat → Nat → Bytes
  | 0, _ => []
  | width + 1, n => pack width (n / 256) ++ [UInt8.ofNat (n % 256)]

theorem length_pack (width n : Nat) : (pack width n).length = width := by
  induction width generalizing n with
  | zero => rfl
  | succ width ih => rw [pack, List.length_append, ih, List.length_singleton]

theorem value_append_singleton (data : Bytes) (b : UInt8) :
    value (data ++ [b]) = value data * 256 + b.toNat := by
  rw [value, List.foldl_append]
  rfl

theorem value_pack {width n : Nat} (h : n < 256 ^ width) : value (pack width n) = n := by
  induction width generalizing n with
  | zero =>
    have hn : n = 0 := Nat.lt_one_iff.mp h
    rw [hn]
    rfl
  | succ width ih =>
    have hdiv : n / 256 < 256 ^ width := by
      rw [Nat.div_lt_iff_lt_mul (by decide)]
      rwa [pow_succ] at h
    have hmod : (UInt8.ofNat (n % 256)).toNat = n % 256 := by
      rw [UInt8.toNat_ofNat']
      omega
    rw [pack, value_append_singleton, ih hdiv, hmod]
    omega

theorem value_lt (data : Bytes) : value data < 256 ^ data.length := by
  induction data using List.reverseRecOn with
  | nil => decide
  | append_singleton data b ih =>
    have hb := b.toNat_lt
    rw [value_append_singleton, List.length_append, List.length_singleton, pow_succ]
    omega

theorem pack_value (data : Bytes) : pack data.length (value data) = data := by
  induction data using List.reverseRecOn with
  | nil => rfl
  | append_singleton data b ih =>
    have hb := b.toNat_lt
    have hdiv : (value data * 256 + b.toNat) / 256 = value data := by omega
    have hmod : (value data * 256 + b.toNat) % 256 = b.toNat := by omega
    rw [value_append_singleton, List.length_append, List.length_singleton, pack, hdiv, hmod, ih,
      UInt8.ofNat_toNat]

theorem unpack_of_length {width : Nat} {data : Bytes} (h : data.length = width) :
    unpack width data = .ok (value data) := if_pos h

theorem length_slice {data : Bytes} {start stop : Nat} (h : stop ≤ data.length) :
    (slice data start stop).length = stop - start := by
  rw [slice, List.length_take, List.length_drop]
  omega

theorem slice_append_drop {data : Bytes} {start stop : Nat} (h : start ≤ stop) :
    slice data start stop ++ data.drop stop = data.drop start := by
  have hdrop : data.drop stop = (data.drop start).drop (stop - start) := by
    rw [List.drop_drop, Nat.add_sub_cancel' h]
  rw [hdrop, slice, List.take_append_drop]

theorem slice_append_of_le {data : Bytes} {start stop : Nat} (h : stop ≤ data.length)
    (after : Bytes) : slice (data ++ after) start stop = slice data start stop := by
  by_cases hstart : start ≤ data.length
  · rw [slice, slice, List.drop_append_of_le_length hstart,
      List.take_append_of_le_length (by rw [List.length_drop]; omega)]
  · rw [slice, slice, Nat.sub_eq_zero_of_le (by omega), List.take_zero, List.take_zero]

theorem slice_append_right (before data : Bytes) (start stop : Nat) :
    slice (before ++ data) (before.length + start) (before.length + stop) =
      slice data start stop := by
  rw [slice, slice, List.drop_append, List.drop_eq_nil_of_le (by omega), List.nil_append,
    Nat.add_sub_cancel_left, Nat.add_sub_add_left]

theorem slice_slice {data : Bytes} {stop start' stop' : Nat} (h : stop' ≤ stop) :
    slice (slice data 0 stop) start' stop' = slice data start' stop' := by
  rw [slice, slice, slice, Nat.sub_zero, List.drop_zero, List.drop_take, List.take_take,
    min_eq_left (by omega)]

/-- A part of a text with something before and after it. -/
theorem slice_append (before part after : Bytes) :
    slice (before ++ (part ++ after)) before.length (before.length + part.length) = part := by
  rw [slice, List.drop_left, Nat.add_sub_cancel_left, List.take_left]

end Lib.BigEndian
