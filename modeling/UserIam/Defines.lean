import Mathlib.Algebra.Ring.Nat
import Mathlib.Tactic.Common

/-!
# Codes shared by the services

Result codes are 32-bit signed numbers that cross process boundaries, so a service may also see
values that no constant names.
-/

namespace UserIam

abbrev ResultCode := Int32

namespace ResultCode

def success : ResultCode := 0
def fail : ResultCode := 1
def generalError : ResultCode := 2
def canceled : ResultCode := 3
def timeout : ResultCode := 4
def typeNotSupport : ResultCode := 5
def trustLevelNotSupport : ResultCode := 6
def busy : ResultCode := 7
def invalidParameters : ResultCode := 8
def locked : ResultCode := 9
def eRetUndone : ResultCode := 16
def eCheckPermissionFailed : ResultCode := 18

end ResultCode

/-- Authentication types are an open enumeration over 32 bits. -/
abbrev AuthType := UInt32

namespace AuthType

def all : AuthType := 0
def pin : AuthType := 1
def face : AuthType := 2

end AuthType

end UserIam
