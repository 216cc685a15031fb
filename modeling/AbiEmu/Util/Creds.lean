import AbiEmu.Lib.Word

/-!
# Credentials (`svr4/svr4.c`, `uw7/misc.c`, `uw7/access.c`, `cxenix/misc.c` under `abi/`)

Four calls set the effective ids, two evaluate an access with them. `uw7_setegid` asks
for the user ids.
-/

namespace AbiEmu.Util

def EIO : Int := 5
def EACCES : Int := 13
def EINVAL : Int := 22

/-- The ids of one kind. -/
structure Ids where
  real : Word
  effective : Word
  saved : Word
  fs : Word

/-- The credentials of a task. -/
structure Creds where
  user : Ids
  group : Ids

inductive Request
  | setreuid16 (ruid euid : BitVec 16)
  | setregid16 (rgid egid : BitVec 16)

/-- The rest of the kernel. `sys_setreuid16` gives new user ids, `sys_setregid16` new group
ids, and `sys_access` leaves the credentials as they are. -/
structure Kernel where
  reply : Request → Creds → Int × Ids
  access : Creds → Word → Word → Int
  userPathWalk : Word → Int
  doRevalidate : Word → Int
  isReg : Word → Bool

/-- A call refuses, or asks the kernel. -/
def Kernel.run (k : Kernel) (c : Creds) : Except Int Request → Int × Creds
  | .error err => (err, c)
  | .ok r =>
    let (err, ids) := k.reply r c
    match r with
    | .setreuid16 .. => (err, { c with user := ids })
    | .setregid16 .. => (err, { c with group := ids })

def svr4Seteuid (uid : Word) : Except Int Request := .ok (.setreuid16 (-1) (uid.setWidth 16))
def svr4Setegid (gid : Word) : Except Int Request := .ok (.setregid16 (-1) (gid.setWidth 16))

/-- The ids from 0 to `UW7_MAXUID`. -/
abbrev Valid (id : Word) : Prop := 0 ≤ id.toInt ∧ id.toInt ≤ 60002

def uw7Seteuid (uid : Word) : Except Int Request :=
  if Valid uid then .ok (.setreuid16 (-1) (uid.setWidth 16)) else .error (-EINVAL)

def uw7Setegid (gid : Word) : Except Int Request :=
  if Valid gid then .ok (.setreuid16 (-1) (gid.setWidth 16)) else .error (-EINVAL)

/-- What an access call returns and leaves, and the credentials `sys_access` sees. -/
structure Access where
  ret : Int
  after : Creds
  seen : Option Creds

/-- The effective ids in place of the real ones. -/
def Creds.asEffective (c : Creds) : Creds :=
  ⟨{ c.user with real := c.user.effective }, { c.group with real := c.group.effective }⟩

/-- `sys_access` between the exchange of the real ids and their return. -/
def xnxEaccess (k : Kernel) (path mode : Word) (c : Creds) : Access :=
  let c' := c.asEffective
  ⟨k.access c' path mode,
    ⟨{ c'.user with real := c.user.real }, { c'.group with real := c.group.real }⟩, some c'⟩

/-- The end of `uw7_access`; it has the same exchange for `UW7_EFF_ONLY_OK`. -/
def uw7Evaluate (k : Kernel) (path mode : Word) (c : Creds) : Access :=
  if mode &&& 0o10 ≠ 0 then xnxEaccess k path (mode &&& ~~~0o10) c
  else ⟨k.access c path mode, c, some c⟩

def uw7Access (k : Kernel) (path mode : Word) (c : Creds) : Access :=
  if mode &&& ~~~0o37 ≠ 0 then ⟨-EINVAL, c, none⟩
  else if mode &&& 0o20 ≠ 0 then
    -- a path that is not found is left to sys_access
    if k.userPathWalk path = 0 ∧ k.doRevalidate path ≠ 0 then ⟨- EIO, c, none⟩
    else if k.userPathWalk path = 0 ∧ k.isReg path = false then ⟨-EACCES, c, none⟩
    else uw7Evaluate k path (mode &&& ~~~0o20 ||| 1) c
  else uw7Evaluate k path mode c

/-- An access with the effective ids or the real ones, that leaves all as they were. -/
def Access.Right (a : Access) (effective : Prop) (c : Creds) : Prop :=
  a.after = c ∧ ∀ c' ∈ a.seen, (effective → c' = c.asEffective) ∧ (¬ effective → c' = c)

variable (k : Kernel) (c : Creds) (uid gid path mode : Word)

/-- Every call touches its own identity only, and the variants ask for the same. -/
structure OwnIdentity : Prop where
  seteuid : (k.run c (svr4Seteuid uid)).2.group = c.group ∧
    (k.run c (uw7Seteuid uid)).2.group = c.group
  setegid : (k.run c (svr4Setegid gid)).2.user = c.user ∧
    (k.run c (uw7Setegid gid)).2.user = c.user
  same : (Valid uid → svr4Seteuid uid = uw7Seteuid uid) ∧
    (Valid gid → svr4Setegid gid = uw7Setegid gid)
  eaccess : (xnxEaccess k path mode c).Right True c
  access : (uw7Access k path mode c).Right (mode &&& 0o10 ≠ 0) c

theorem eaccess_right {p : Prop} (hp : p) : (xnxEaccess k path mode c).Right p c :=
  ⟨rfl, fun _ h => ⟨fun _ => (Option.some.inj h).symm, fun hn => absurd hp hn⟩⟩

theorem uw7Access_right : (uw7Access k path mode c).Right (mode &&& 0o10 ≠ 0) c := by
  have heval : ∀ m : Word, m &&& 0o10 = mode &&& 0o10 →
      (uw7Evaluate k path m c).Right (mode &&& 0o10 ≠ 0) c := by
    intro m hm
    unfold uw7Evaluate
    rw [hm]
    split
    next heff => exact eaccess_right k c path _ heff
    next hreal => exact ⟨rfl, fun _ h => ⟨fun heff => absurd heff hreal,
      fun _ => (Option.some.inj h).symm⟩⟩
  unfold uw7Access
  split_ifs
  iterate 3 exact ⟨rfl, nofun⟩
  · apply heval
    rw [BitVec.and_or_distrib_right, BitVec.and_assoc]
    exact BitVec.or_zero
  · exact heval mode rfl

/-- This holds exactly if `uw7_setegid` refuses. -/
theorem own_identity_iff : OwnIdentity k c uid gid path mode ↔ ¬ Valid gid := by
  constructor
  · intro h hvalid
    have hsame := h.same.2 hvalid
    rw [uw7Setegid, if_pos hvalid] at hsame
    cases hsame
  · intro hno
    refine ⟨⟨rfl, ?_⟩, ⟨rfl, ?_⟩, ⟨fun hvalid => (if_pos hvalid).symm, fun h => absurd h hno⟩,
      eaccess_right k c path mode trivial, uw7Access_right k c path mode⟩
    · unfold uw7Seteuid
      split <;> rfl
    · rw [uw7Setegid, if_neg hno]
      rfl

/-- A kernel that grants any id: `setegid(100)` gives the user id 100. -/
theorem setegid_sets_user : ∃ k : Kernel, ∃ c : Creds, c.user.effective = 0 ∧
    (k.run c (uw7Setegid 100)).2.user.effective = 100 :=
  ⟨⟨fun
      | .setreuid16 _ e, c | .setregid16 _ e, c => (0, { c.user with effective := e.setWidth 32 }),
    fun _ _ _ => 0, fun _ => 0, fun _ => 0, fun _ => true⟩,
    ⟨⟨0, 0, 0, 0⟩, ⟨0, 0, 0, 0⟩⟩, rfl, by decide⟩

end AbiEmu.Util
