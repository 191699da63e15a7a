import Mathlib.Data.Prod.Basic
import Core6502.Address

/-! # Address arithmetic

What the arithmetic on bytes and addresses computes, as sums and remainders of
natural numbers. An address is two bytes, in either order, and an index can be added
to it byte by byte: to the offset inside the page first, and only if this carries does
the page change, to the next one or from the last one to page zero.
-/

namespace Core6502

theorem Address.toNat_zeroPage (offset : Byte) : (zeroPage offset).toNat = offset.toNat :=
  UInt8.toNat_toUInt16 offset

theorem toNat_zeroPageWrap (first second : Byte) :
    (zeroPageWrap first second).toNat = (first.toNat + second.toNat) % 256 :=
  UInt8.toNat_add first second

theorem Address.toNat_add_index (base : Address) (index : Byte) :
    (base + index.toUInt16).toNat = (base.toNat + index.toNat) % 65536 := by
  rw [UInt16.toNat_add, UInt8.toNat_toUInt16]

/-- Indexing leaves the page of the base exactly when the sum of the low byte
and the index carries, also at the end of memory. -/
theorem Address.pagesCrossed_iff (base : Address) (index : Byte) :
    base.pagesCrossed index = true ↔ 256 ≤ base.toNat % 256 + index.toNat := by
  have hbase := base.toNat_lt
  have hindex := index.toNat_lt
  rw [pagesCrossed, bne_iff_ne, ne_eq, ← UInt8.toNat_inj, toNat_page, toNat_page,
    toNat_add_index]
  omega

theorem OperandOrder.toNat_combine (order : OperandOrder) (first second : Byte) :
    (order.combine first second).toNat = match order with
      | .highFirst => 256 * first.toNat + second.toNat
      | .lowFirst => 256 * second.toNat + first.toNat := by
  cases order with
  | highFirst => exact Address.toNat_ofBytes first second
  | lowFirst => exact Address.toNat_ofBytes second first

namespace Address

theorem ofBytes_bijective : Function.Bijective (Function.uncurry ofBytes) := by
  refine Function.bijective_iff_has_inverse.mpr
    ⟨fun address => (page address, offset address), ?_, ofBytes_page_offset⟩
  rintro ⟨high, low⟩
  exact Prod.ext (page_ofBytes high low) (offset_ofBytes high low)

/-- The page is shifted up, and the offset takes the bits that this sets free. -/
theorem ofBytes_eq_or (high low : Byte) :
    ofBytes high low = high.toUInt16 <<< 8 ||| low.toUInt16 := by
  have hshift : (high.toUInt16 <<< 8).toNat = high.toNat <<< 8 := by
    have hhigh := high.toNat_lt
    simp only [UInt16.toNat_shiftLeft, UInt8.toNat_toUInt16, UInt16.reduceToNat, Nat.reduceMod,
      Nat.shiftLeft_eq]
    omega
  rw [← UInt16.toNat_inj, toNat_ofBytes, UInt16.toNat_or, hshift, UInt8.toNat_toUInt16,
    ← Nat.shiftLeft_add_eq_or_of_lt low.toNat_lt, Nat.shiftLeft_eq, Nat.mul_comm]

/-- Masking out the low byte of an address clears its offset. -/
theorem and_highByte (address : Address) : address &&& 0xFF00 = ofBytes (page address) 0 := by
  have hpage : page (address &&& 0xFF00) = page address := by
    rw [page, UInt16.shiftRight_and, UInt16.toUInt8_and]
    exact UInt8.and_neg_one
  have hoffset : offset (address &&& 0xFF00) = 0 := by
    rw [offset, UInt16.toUInt8_and]
    exact UInt8.and_zero
  rw [← ofBytes_page_offset (address &&& 0xFF00), hpage, hoffset]

theorem and_highByte_eq_iff {first second : Address} :
    first &&& 0xFF00 = second &&& 0xFF00 ↔ page first = page second := by
  rw [and_highByte, and_highByte]
  constructor
  · intro h
    simpa using congrArg page h
  · intro h
    rw [h]

variable (base : Address) (index : Byte)

theorem pagesCrossed_eq_masked :
    base.pagesCrossed index = ((base + index.toUInt16) &&& 0xFF00 != base &&& 0xFF00) := by
  rw [pagesCrossed, Bool.eq_iff_iff, bne_iff_ne, bne_iff_ne, ne_eq, ne_eq, and_highByte_eq_iff]

theorem offset_add_index :
    offset (base + index.toUInt16) = zeroPageWrap (offset base) index := by
  rw [← UInt8.toNat_inj, toNat_offset, toNat_add_index, toNat_zeroPageWrap, toNat_offset]
  omega

theorem page_add_index :
    page (base + index.toUInt16) =
      if base.pagesCrossed index then page base + 1 else page base := by
  split
  next hcrossed =>
      have hbase := base.toNat_lt
      have hindex := index.toNat_lt
      rw [pagesCrossed_iff] at hcrossed
      -- Two bytes carry one page at most.
      rw [← UInt8.toNat_inj, toNat_page, toNat_add_index, UInt8.toNat_add, toNat_page,
        UInt8.toNat_one]
      omega
  next hcrossed =>
      rwa [pagesCrossed, bne_iff_ne, ne_eq, not_not] at hcrossed

/-- An index is added in two stages, to the offset first and then what is carried to the page. -/
theorem add_index_eq_ofBytes :
    base + index.toUInt16 =
      ofBytes (if base.pagesCrossed index then page base + 1 else page base)
        (zeroPageWrap (offset base) index) := by
  rw [← page_add_index, ← offset_add_index, ofBytes_page_offset]

/-- Page zero comes after the last page, and after no other. -/
theorem page_add_index_eq_zero_iff {base : Address} {index : Byte}
    (hcrossed : base.pagesCrossed index = true) :
    page (base + index.toUInt16) = 0 ↔ page base = 0xFF := by
  have hwrap : (0 : Byte) = 0xFF + 1 := by decide
  rw [page_add_index, if_pos hcrossed, hwrap, UInt8.add_left_inj]

end Address

/-- Under either order, every address is what exactly one pair of operand bytes denotes. -/
theorem OperandOrder.combine_bijective (order : OperandOrder) :
    Function.Bijective (Function.uncurry order.combine) := by
  cases order with
  | highFirst => exact Address.ofBytes_bijective
  | lowFirst =>
      have hswap : Function.uncurry lowFirst.combine =
          Function.uncurry Address.ofBytes ∘ Prod.swap := rfl
      rw [hswap]
      exact Address.ofBytes_bijective.comp Prod.swap_bijective

/-- A base of two bytes, and what adding an index does to each of them. -/
structure Address.IndexedBytewise (base : Address) (high low index : Byte) : Prop where
  lowFirst : base = OperandOrder.lowFirst.combine low high
  bits : base = high.toUInt16 <<< 8 ||| low.toUInt16
  sum : base + index.toUInt16 =
    OperandOrder.highFirst.combine (if base.pagesCrossed index then high + 1 else high)
      (zeroPageWrap low index)
  carries : base.pagesCrossed index = true ↔ 256 ≤ low.toNat + index.toNat
  masked : base.pagesCrossed index = ((base + index.toUInt16) &&& 0xFF00 != base &&& 0xFF00)
  turnsOver : base.pagesCrossed index = true ∧ (base + index.toUInt16).page = 0 ↔
    high = 0xFF ∧ 256 ≤ low.toNat + index.toNat

/-- Pairs of bytes are addresses under both orders, and indexing is done byte by byte. -/
theorem OperandOrder.indexedBytewise :
    (∀ order : OperandOrder, Function.Bijective (Function.uncurry order.combine)) ∧
      ∀ high low index : Byte,
        (highFirst.combine high low).IndexedBytewise high low index := by
  refine ⟨combine_bijective, ?_⟩
  intro high low index
  have hcarries : (Address.ofBytes high low).pagesCrossed index = true ↔
      256 ≤ low.toNat + index.toNat := by
    rw [Address.pagesCrossed_iff, ← Address.toNat_offset, Address.offset_ofBytes]
  have hsum := Address.add_index_eq_ofBytes (Address.ofBytes high low) index
  rw [Address.page_ofBytes, Address.offset_ofBytes] at hsum
  refine {
    lowFirst := rfl
    bits := Address.ofBytes_eq_or high low
    sum := hsum
    carries := hcarries
    masked := Address.pagesCrossed_eq_masked _ index
    turnsOver := ?_ }
  have hpage : (highFirst.combine high low).page = high := Address.page_ofBytes high low
  rw [← hcarries, and_comm]
  apply and_congr_left
  intro hcrossed
  rw [Address.page_add_index_eq_zero_iff hcrossed, hpage]

end Core6502
