import Mathlib

/-!
# Addresses of the internet

The addresses of the module `ipaddress`, and which of them it calls globally reachable.
-/

namespace DomainLens
namespace Python

inductive IpAddress where
  | v4 (value : BitVec 32)
  | v6 (value : BitVec 128)
deriving DecidableEq

/-- A network: its first address and the length of its prefix. -/
abbrev Network (width : Nat) := BitVec width × Nat

def inNetwork {width : Nat} (network : Network width) (value : BitVec width) : Bool :=
  network.1 >>> (width - network.2) == value >>> (width - network.2)

def inAnyNetwork {width : Nat} (networks : List (Network width)) (value : BitVec width) : Bool :=
  networks.any fun network => inNetwork network value

namespace IpAddress

/-- The address written as four numbers. -/
def quad (first second third fourth : Nat) : IpAddress :=
  .v4 (BitVec.ofNat 32 (((first * 256 + second) * 256 + third) * 256 + fourth))

def privateNetworks4 : List (Network 32) :=
  [(0x00000000, 8), (0x0A000000, 8), (0x7F000000, 8), (0xA9FE0000, 16), (0xAC100000, 12),
    (0xC0000000, 24), (0xC00000AA, 31), (0xC0000200, 24), (0xC0A80000, 16), (0xC6120000, 15),
    (0xC6336400, 24), (0xCB007100, 24), (0xF0000000, 4), (0xFFFFFFFF, 32)]

def privateExceptions4 : List (Network 32) := [(0xC0000009, 32), (0xC000000A, 32)]

/-- The shared addresses of carriers, neither private nor global. -/
def sharedNetwork4 : Network 32 := (0x64400000, 10)

def privateNetworks6 : List (Network 128) :=
  [(0x00000000000000000000000000000001, 128), (0x00000000000000000000000000000000, 128),
    (0x00000000000000000000FFFF00000000, 96), (0x0064FF9B000100000000000000000000, 48),
    (0x01000000000000000000000000000000, 64), (0x20010000000000000000000000000000, 23),
    (0x20010DB8000000000000000000000000, 32), (0x20020000000000000000000000000000, 16),
    (0xFC000000000000000000000000000000, 7), (0xFE800000000000000000000000000000, 10)]

def privateExceptions6 : List (Network 128) :=
  [(0x20010001000000000000000000000001, 128), (0x20010001000000000000000000000002, 128),
    (0x20010003000000000000000000000000, 32), (0x20010004011200000000000000000000, 48),
    (0x20010020000000000000000000000000, 28), (0x20010030000000000000000000000000, 28)]

/-- The embedded address of an IPv4-mapped one. -/
def mapped4 (value : BitVec 128) : Option (BitVec 32) :=
  if inNetwork (0x00000000000000000000FFFF00000000, 96) value then some (value.truncate 32)
  else none

def isPrivate4 (value : BitVec 32) : Bool :=
  inAnyNetwork privateNetworks4 value && !inAnyNetwork privateExceptions4 value

/-- `is_private`. -/
def isPrivate : IpAddress → Bool
  | .v4 value => isPrivate4 value
  | .v6 value =>
      match mapped4 value with
      | some embedded => isPrivate4 embedded
      | none => inAnyNetwork privateNetworks6 value && !inAnyNetwork privateExceptions6 value

/-- `is_global`. -/
def isGlobal : IpAddress → Bool
  | .v4 value => !inNetwork sharedNetwork4 value && !isPrivate4 value
  | .v6 value => !isPrivate (.v6 value)

example : (quad 86 54 11 100).isGlobal = true := by decide

example : (quad 100 64 0 1).isPrivate = false ∧ (quad 100 64 0 1).isGlobal = false := by decide

end IpAddress

end Python
end DomainLens
