import Mxid.Data.Table

namespace Mxid

structure User where
  id : Int
  tenantID : Int
  username : String
  email : Option String
  phone : Option String
  displayName : Option String
  passwordHash : String
  status : Int
  deleted : Bool
  deriving DecidableEq

namespace User

def statusActive : Int := 1
def statusLocked : Int := 2
def statusDisabled : Int := 3

structure Repository where
  table : Table User.id
  id_pos : ∀ u ∈ table.rows, 0 < u.id

theorem no_users : ∀ u ∈ (Table.empty : Table User.id).rows, 0 < u.id := by decide

namespace Repository

variable (r : Repository)

def first (tenantID : Int) (p : User → Bool) : Option User :=
  if 0 < tenantID then
    (Table.orderBy User.id r.table.rows).find? (fun u => !u.deleted && u.tenantID == tenantID && p u)
  else
    none

def getByID (tenantID id : Int) : Option User :=
  r.first tenantID (fun u => u.id = id)

def getByUsername (tenantID : Int) (username : String) : Option User :=
  r.first tenantID (fun u => u.username.toLower = username.toLower)

def getByEmail (tenantID : Int) (email : String) : Option User :=
  r.first tenantID (fun u => u.email = some email)

def getByPhone (tenantID : Int) (phone : String) : Option User :=
  r.first tenantID (fun u => u.phone = some phone)

def setDeleted (deleted : Bool) (u : User) : User := { u with deleted }

@[simp]
theorem id_setDeleted (deleted : Bool) (u : User) : (setDeleted deleted u).id = u.id := rfl

theorem id_pos_update (p : User → Bool) (deleted : Bool) :
    ∀ u ∈ (r.table.update p (setDeleted deleted) (id_setDeleted deleted)).rows, 0 < u.id := by
  intro u hu
  rw [Table.rows_update, List.mem_map] at hu
  rcases hu with ⟨u0, hu0, rfl⟩
  have hpos := r.id_pos u0 hu0
  split <;> exact hpos

def delete (tenantID id : Int) : Repository :=
  ⟨_, r.id_pos_update (fun u => u.id = id && u.tenantID = tenantID && !u.deleted) true⟩

def restore (tenantID id : Int) : Option Repository :=
  if 0 < tenantID ∧ r.table.rows.any (fun u => u.id = id && u.tenantID = tenantID && u.deleted) then
    some ⟨_, r.id_pos_update (fun u => u.id = id && u.tenantID = tenantID && u.deleted) false⟩
  else
    none

variable {r}

theorem first_eq_some {tenantID : Int} {p : User → Bool} {u : User} (h : r.first tenantID p = some u) :
    u ∈ r.table.rows ∧ u.deleted = false ∧ u.tenantID = tenantID ∧ p u = true := by
  unfold first at h
  split at h
  . have hmem := List.mem_of_find?_eq_some h
    have hp := List.find?_some h
    rw [Table.mem_orderBy] at hmem
    simp only [Bool.and_eq_true, Bool.not_eq_true', beq_iff_eq] at hp
    exact ⟨hmem, hp.1.1, hp.1.2, hp.2⟩
  . contradiction

end Repository

end User
end Mxid
