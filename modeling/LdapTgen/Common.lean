import Mathlib

/-! Names shared by the modules of tgen: requests, thread states, session policies, result codes. -/
namespace LdapTgen

/-- `enum Request_Name`, in the order of texec.h. -/
inductive RequestName
  | sceBegin
  | ldapBindRq
  | ldapUnBindRq
  | ldapSearchRq
  | ldapModifyRq
  | ldapAddRq
  | ldapDeleteRq
  | ldapSearchResp
  | ldapBindResp
  | radiusAuthWPRq
  | radiusAuthRq
  | radiusAccessEapIdRq
  | radiusAccessEapStartRq
  | radiusAccessEapChalRq
  | radiusAccessEapCliErrRq
  | radiusAccessEapNotifRq
  | radiusAccessEapFastRq
  | radiusAccessEapTtlsRq
  | radiusAccessEapTlsRq
  | radiusAccessEapAKAIdentityRq
  | radiusAccessEapAKAChalRq
  | radiusAccessEapAKARejRq
  | radiusAccessEapAKASynfailRq
  | radiusAccountStartRq
  | radiusAccountInterimRq
  | radiusAccountStopRq
  | radiusAccountOnRq
  | radiusAccountOffRq
  | sceWait
  | sceEnd
  deriving DecidableEq, Repr

inductive SessionPolicy
  | global
  | localSce
  | localThr
  deriving DecidableEq, Repr

def workThr : ℕ := 12

def tLdapGetLdId (tcLdapBindNb key : ℕ) : ℕ :=
  if key < workThr then key else (key - workThr) % tcLdapBindNb

def ldapSuccess : ℤ := 0
def ldapOperationsError : ℤ := 1
def ldapNoSuchObject : ℤ := 32
def ldapServerDown : ℤ := -1
def ldapLocalError : ℤ := -2
def ldapTimeout : ℤ := -5
def ldapConnectError : ℤ := -11

end LdapTgen
