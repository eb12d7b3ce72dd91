import DomainLens.Library.Numeral
import DomainLens.Python.IpAddress
import DomainLens.Python.Text

/-!
# Networks of the internet

The networks of the module `ipaddress`.  The addresses of a network are those from its first to its
last one, also when they are written as hexadecimal numbers of one width and compared as texts.
-/

namespace DomainLens
namespace Python

open Numeral

/-- A network of addresses of one width, whose first address ends in zeros. -/
structure Block (width : Nat) where
  base : BitVec width
  length : Nat
  bounded : length ≤ width
  aligned : 2 ^ (width - length) ∣ base.toNat

namespace Block

variable {width : Nat} (block : Block width)

/-- `hostmask`. -/
def hostmask : Nat := 2 ^ (width - block.length) - 1

/-- `network_address`. -/
def networkAddress : Nat := block.base.toNat

/-- `broadcast_address`. -/
def broadcastAddress : Nat := block.base.toNat ||| block.hostmask

/-- `address in network`. -/
def contains (address : BitVec width) : Bool := inNetwork (block.base, block.length) address

theorem broadcastAddress_eq : block.broadcastAddress = block.base.toNat + block.hostmask := by
  obtain ⟨quotient, isBase⟩ := block.aligned
  rw [broadcastAddress, isBase, hostmask]
  exact (Nat.two_pow_add_eq_or_of_lt (Nat.sub_lt (Nat.two_pow_pos _) Nat.one_pos) quotient).symm

theorem broadcastAddress_lt : block.broadcastAddress < 2 ^ width :=
  Nat.or_lt_two_pow block.base.isLt
    ((Nat.sub_lt (Nat.two_pow_pos _) Nat.one_pos).trans_le
      (Nat.pow_le_pow_right (by decide) (Nat.sub_le _ _)))

theorem contains_iff {address : BitVec width} :
    block.contains address ↔
      block.networkAddress ≤ address.toNat ∧ address.toNat ≤ block.broadcastAddress := by
  have positive := Nat.two_pow_pos (width - block.length)
  obtain ⟨quotient, isBase⟩ := block.aligned
  rw [broadcastAddress_eq, networkAddress, contains, inNetwork, beq_iff_eq, ← BitVec.toNat_inj,
    BitVec.toNat_ushiftRight, BitVec.toNat_ushiftRight, Nat.shiftRight_eq_div_pow,
    Nat.shiftRight_eq_div_pow, hostmask, isBase, Nat.mul_div_cancel_left _ positive, eq_comm,
    Nat.div_eq_iff positive, Nat.mul_comm]
  omega

end Block

/-- `IPv4Network` and `IPv6Network`. -/
inductive IpNetwork where
  | v4 (block : Block 32)
  | v6 (block : Block 128)

/-- `version`. -/
def IpAddress.version : IpAddress → Nat
  | .v4 _ => 4
  | .v6 _ => 6

namespace IpNetwork

def version : IpNetwork → Nat
  | .v4 _ => 4
  | .v6 _ => 6

/-- An address is in a network of its own version. -/
def contains : IpNetwork → IpAddress → Bool
  | .v4 block, .v4 address => block.contains address
  | .v6 block, .v6 address => block.contains address
  | .v4 _, .v6 _ | .v6 _, .v4 _ => false

end IpNetwork

/-! ## Hexadecimal numbers -/

theorem hexDigits_eq_numeral (width value : Nat) :
    hexDigits width value = numeral Nat.digitChar 16 width value := by
  induction width generalizing value with
  | zero => rfl
  | succ width induction => rw [hexDigits, numeral, induction]

theorem hexDigits_ordered : Ordered Nat.digitChar 16 := by
  intro left leftSmall right rightSmall
  interval_cases left <;> interval_cases right <;> decide

/-- Hexadecimal numbers of one width are ordered as texts the way their numbers are. -/
theorem hexDigits_le_iff {width left right : Nat} (leftSmall : left < 16 ^ width)
    (rightSmall : right < 16 ^ width) :
    hexDigits width left ≤ hexDigits width right ↔ left ≤ right := by
  simp only [hexDigits_eq_numeral]
  exact numeral_le_numeral_iff hexDigits_ordered (by decide) leftSmall rightSmall

end Python
end DomainLens
