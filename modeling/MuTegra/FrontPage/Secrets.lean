/- Unit: MuTegra/FrontPage/Secrets
   source: NvidiaPkg/Applications/FrontPage/FrontPageUi.c
   digest: Password buffers handed out by dialogs, and what wiping and freeing one leaves. -/

import MuTegra.Foundation.Ownership
import MuTegra.Uefi.Strings
import Mathlib.Data.List.Basic
import Mathlib.Logic.Function.Basic

/-!
A buffer keeps its contents when it is freed, so a password that was not wiped stays readable.
Two counts tell what must not happen: a buffer freed with characters left in it, and a buffer
that is live when a dialog starts.
-/

set_option autoImplicit false
set_option relaxedAutoImplicit false

namespace MuTegra.FrontPage.Secrets

open MuTegra.Foundation.Ownership
open MuTegra.Uefi.Strings

/-- What a password buffer holds, and how many of its first cells held the password. -/
structure Secret where
  cells : List UInt16
  characters : ℕ

/-- A password as a dialog hands it out: its characters, and what lies behind its terminator. -/
structure Handed where
  password : UnicodeString
  rest : List UInt16

def Handed.secret (h : Handed) : Secret :=
  ⟨h.password.chars ++ 0 :: h.rest, h.password.chars.length⟩

def Secret.string (s : Secret) : List UInt16 := s.cells.takeWhile (· ≠ 0)

def Secret.zeroMem (s : Secret) (count : ℕ) : Secret :=
  { s with cells := List.replicate count 0 ++ s.cells.drop count }

def Secret.Wiped (s : Secret) : Prop := ∀ cell ∈ s.cells.take s.characters, cell = 0

instance (s : Secret) : Decidable s.Wiped :=
  inferInstanceAs (Decidable (∀ cell ∈ s.cells.take s.characters, cell = 0))

inductive Message where
  | nullString
  | tooShort
  | tooLong
  | invalidChar
  | authError
  | setGenFailure
  | attemptsExpired
  deriving DecidableEq, Repr

/-- The pool with the buffers handed out of it, `PasswordBuffer` and `pErrorMessage`, and the
messages of the dialogs so far. -/
structure Prompting where
  pool : Ledger
  secrets : ℕ → Secret
  handed : List ℕ
  unwiped : ℕ
  exposed : ℕ
  passwordBuffer : Option ℕ
  errorMessage : Message
  shown : List Message

def Prompting.start (pool : Ledger) (secrets : ℕ → Secret) : Prompting :=
  ⟨pool, secrets, [], 0, 0, none, .nullString, []⟩

def Prompting.startDialog (p : Prompting) (message : Message) : Prompting :=
  { p with
    exposed := p.exposed + (p.handed.filter (· ∈ p.pool.live)).length
    shown := p.shown ++ [message] }

def Prompting.receive (p : Prompting) : Option Handed → Prompting
  | none => p
  | some given =>
      { p with
        pool := p.pool.grant
        secrets := Function.update p.secrets p.pool.next given.secret
        handed := p.handed ++ [p.pool.next]
        passwordBuffer := some p.pool.next }

def Prompting.password (p : Prompting) : Option (List UInt16) :=
  p.passwordBuffer.map fun id => (p.secrets id).string

/-- `ZeroMem` of the string in `PasswordBuffer`, `FreePool` and the reset of the pointer, unless
it is `NULL`. -/
def Prompting.releasePassword (p : Prompting) : Prompting :=
  match p.passwordBuffer with
  | none => p
  | some id =>
      let zeroed := (p.secrets id).zeroMem (p.secrets id).string.length
      { p with
        pool := p.pool.release (some id)
        secrets := Function.update p.secrets id zeroed
        unwiped := p.unwiped + if zeroed.Wiped then 0 else 1
        passwordBuffer := none }

def Prompting.lengths (p : Prompting) : List ℕ := p.handed.map fun id => (p.secrets id).characters

/-- Every buffer handed out was obtained and has been freed once, wiped by then, before the next
dialog. -/
structure Kept (base : Ledger) (p : Prompting) : Prop where
  obtained : ∀ id ∈ p.handed, base.next ≤ id ∧ id < p.pool.next
  distinct : p.handed.Nodup
  freed : ∀ id ∈ p.handed, id ∉ p.pool.live
  once : p.pool.faults = base.faults
  wiped : ∀ id ∈ p.handed, (p.secrets id).Wiped
  unwiped : p.unwiped = 0
  exposed : p.exposed = 0

/-- The buffer handed out last holds a password, and nothing else is still to be released. -/
structure Holding (base : Ledger) (password : Option UnicodeString) (p : Prompting) : Prop where
  owns : Owns base (held p.passwordBuffer) p.pool
  next_le : base.next ≤ p.pool.next
  obtained : ∀ id ∈ p.handed, base.next ≤ id
  distinct : p.handed.Nodup
  older : ∀ id ∈ p.handed, id < p.pool.next
  foreign : ∀ id ∈ p.handed, id ∉ base.live
  wiped : ∀ id ∈ p.handed, p.passwordBuffer ≠ some id → (p.secrets id).Wiped
  reads : p.password = password.map UnicodeString.chars
  whole : ∀ id, p.passwordBuffer = some id →
    (p.secrets id).characters = (p.secrets id).string.length
  unwiped : p.unwiped = 0
  exposed : p.exposed = 0

theorem string_secret (h : Handed) : h.secret.string = h.password.chars := by
  rw [Handed.secret, Secret.string, List.takeWhile_append_of_pos]
  · simp
  · intro c member
    rw [decide_eq_true_iff]
    rintro rfl
    exact h.password.noNull member

theorem wiped_zeroMem {s : Secret} (whole : s.characters = s.string.length) :
    (s.zeroMem s.string.length).Wiped := by
  intro cell member
  have front : (s.zeroMem s.string.length).cells.take s.characters =
      List.replicate s.string.length 0 := by
    rw [whole]
    exact List.take_left' List.length_replicate
  change cell ∈ (s.zeroMem s.string.length).cells.take s.characters at member
  rw [front] at member
  exact (List.mem_replicate.mp member).2

variable {base : Ledger} {password : Option UnicodeString} {p : Prompting}

theorem Holding.start (base : Ledger) (secrets : ℕ → Secret) :
    Holding base none (.start base secrets) where
  owns := Owns.refl base
  next_le := le_refl _
  obtained := fun _ member => absurd member List.not_mem_nil
  distinct := List.nodup_nil
  older := fun _ member => absurd member List.not_mem_nil
  foreign := fun _ member => absurd member List.not_mem_nil
  wiped := fun _ member => absurd member List.not_mem_nil
  reads := rfl
  whole := fun _ held => absurd held (Option.some_ne_none _).symm
  unwiped := rfl
  exposed := rfl

theorem Holding.passwordBuffer_none (h : Holding base none p) : p.passwordBuffer = none :=
  Option.map_eq_none_iff.mp h.reads

theorem Holding.freed (h : Holding base none p) : ∀ id ∈ p.handed, id ∉ p.pool.live := by
  intro id member live
  have balance := h.owns.live
  rw [h.passwordBuffer_none, held_none, Multiset.zero_add] at balance
  exact h.foreign id member (balance ▸ live)

theorem Holding.kept (h : Holding base none p) : Kept base p where
  obtained := fun id member => ⟨h.obtained id member, h.older id member⟩
  distinct := h.distinct
  freed := h.freed
  once := h.owns.clean
  wiped := fun id member => h.wiped id member (by rw [h.passwordBuffer_none]; exact nofun)
  unwiped := h.unwiped
  exposed := h.exposed

theorem Holding.withMessage (h : Holding base password p) (message : Message) :
    Holding base password { p with errorMessage := message } :=
  ⟨h.owns, h.next_le, h.obtained, h.distinct, h.older, h.foreign, h.wiped, h.reads, h.whole,
    h.unwiped, h.exposed⟩

theorem Holding.withScratch (h : Holding base password p) :
    Holding base password
      { p with pool := (p.pool.acquire true).2.release (p.pool.acquire true).1 } where
  owns := ⟨(release_grant_faults p.pool).trans h.owns.clean,
    (release_grant_live p.pool).trans h.owns.live⟩
  next_le := by
    change base.next ≤ (p.pool.grant.release (some p.pool.next)).next
    rw [release_next]
    exact Nat.le_succ_of_le h.next_le
  obtained := h.obtained
  distinct := h.distinct
  older := by
    intro id member
    change id < (p.pool.grant.release (some p.pool.next)).next
    rw [release_next]
    exact Nat.lt_succ_of_lt (h.older id member)
  foreign := h.foreign
  wiped := h.wiped
  reads := h.reads
  whole := h.whole
  unwiped := h.unwiped
  exposed := h.exposed

theorem Holding.startDialog (h : Holding base none p) (message : Message) :
    Holding base none (p.startDialog message) where
  owns := h.owns
  next_le := h.next_le
  obtained := h.obtained
  distinct := h.distinct
  older := h.older
  foreign := h.foreign
  wiped := h.wiped
  reads := h.reads
  whole := h.whole
  unwiped := h.unwiped
  exposed := by
    have none_live : p.handed.filter (· ∈ p.pool.live) = [] := by
      rw [List.filter_eq_nil_iff]
      intro id member live
      exact h.freed id member (of_decide_eq_true live)
    change p.exposed + (p.handed.filter (· ∈ p.pool.live)).length = 0
    rw [none_live, h.exposed]
    rfl

theorem Holding.receive (h : Holding base none p) (given : Option Handed) :
    Holding base (given.map Handed.password) (p.receive given) := by
  cases given with
  | none => exact h
  | some given =>
      have empty := h.passwordBuffer_none
      have owns : Owns base 0 p.pool := by
        have owns := h.owns
        rwa [empty] at owns
      constructor
      · exact owns.grant
      · exact Nat.le_succ_of_le h.next_le
      · intro id member
        rcases List.mem_append.mp member with earlier | new
        · exact h.obtained id earlier
        · rw [List.mem_singleton.mp new]
          exact h.next_le
      · refine List.nodup_append.mpr ⟨h.distinct, List.nodup_singleton _, ?_⟩
        intro id member new hnew
        rw [List.mem_singleton.mp hnew]
        exact Nat.ne_of_lt (h.older id member)
      · intro id member
        rcases List.mem_append.mp member with earlier | new
        · exact Nat.lt_succ_of_lt (h.older id earlier)
        · rw [List.mem_singleton.mp new]
          exact Nat.lt_succ_self _
      · intro id member
        rcases List.mem_append.mp member with earlier | new
        · exact h.foreign id earlier
        · rw [List.mem_singleton.mp new]
          intro live
          refine lt_irrefl _ (p.pool.bounded p.pool.next ?_)
          rw [owns.live, Multiset.zero_add]
          exact live
      · intro id member other
        rcases List.mem_append.mp member with earlier | new
        · have ne : id ≠ p.pool.next := Nat.ne_of_lt (h.older id earlier)
          change (Function.update p.secrets p.pool.next given.secret id).Wiped
          rw [Function.update_of_ne ne]
          exact h.wiped id earlier (by rw [empty]; exact nofun)
        · exact absurd (congrArg some (List.mem_singleton.mp new).symm) other
      · change some (Function.update p.secrets p.pool.next given.secret p.pool.next).string = _
        rw [Function.update_self, string_secret]
        rfl
      · intro id hid
        obtain rfl := Option.some.inj hid
        change (Function.update p.secrets p.pool.next given.secret p.pool.next).characters =
          (Function.update p.secrets p.pool.next given.secret p.pool.next).string.length
        rw [Function.update_self, string_secret]
        rfl
      · exact h.unwiped
      · exact h.exposed

theorem releasePassword_none (buffer : p.passwordBuffer = none) : p.releasePassword = p := by
  rw [Prompting.releasePassword, buffer]

theorem releasePassword_some {id : ℕ} (buffer : p.passwordBuffer = some id)
    (whole : (p.secrets id).characters = (p.secrets id).string.length) :
    p.releasePassword =
      { p with
        pool := p.pool.release (some id)
        secrets := Function.update p.secrets id
          ((p.secrets id).zeroMem (p.secrets id).string.length)
        passwordBuffer := none } := by
  rw [Prompting.releasePassword, buffer]
  simp only [if_pos (wiped_zeroMem whole), add_zero]

theorem Holding.releasePassword (h : Holding base password p) :
    Holding base none p.releasePassword := by
  cases buffer : p.passwordBuffer with
  | none =>
      have nothing : p.password = none := by
        rw [Prompting.password, buffer]
        rfl
      rw [releasePassword_none buffer]
      exact ⟨h.owns, h.next_le, h.obtained, h.distinct, h.older, h.foreign, h.wiped, nothing,
        h.whole, h.unwiped, h.exposed⟩
  | some id =>
      have owns : Owns base ({id} + 0) p.pool := by
        have owns := h.owns
        rwa [buffer, held_some, ← add_zero ({id} : Multiset ℕ)] at owns
      rw [releasePassword_some buffer (h.whole id buffer)]
      constructor
      · exact owns.release
      · rw [release_next]
        exact h.next_le
      · exact h.obtained
      · exact h.distinct
      · intro other member
        rw [release_next]
        exact h.older other member
      · exact h.foreign
      · intro other member _
        change (Function.update p.secrets id _ other).Wiped
        by_cases eq : other = id
        · subst eq
          rw [Function.update_self]
          exact wiped_zeroMem (h.whole other buffer)
        · rw [Function.update_of_ne eq]
          refine h.wiped other member fun held => eq ?_
          exact (Option.some.inj (buffer.symm.trans held)).symm
      · rfl
      · exact fun _ held => absurd held (Option.some_ne_none _).symm
      · exact h.unwiped
      · exact h.exposed

theorem Holding.lengths_receive (h : Holding base password p) (given : Option Handed) :
    (p.receive given).lengths =
      p.lengths ++ (given.map fun handed => handed.password.chars.length).toList := by
  cases given with
  | none => exact (List.append_nil _).symm
  | some given =>
      change (p.handed ++ [p.pool.next]).map (fun id =>
        (Function.update p.secrets p.pool.next given.secret id).characters) = _
      rw [List.map_append, List.map_singleton, Function.update_self]
      refine congrArg (· ++ [given.password.chars.length]) (List.map_congr_left ?_)
      intro id member
      have ne : id ≠ p.pool.next := Nat.ne_of_lt (h.older id member)
      rw [Function.update_of_ne ne]

theorem lengths_releasePassword (p : Prompting) : p.releasePassword.lengths = p.lengths := by
  cases buffer : p.passwordBuffer with
  | none => rw [releasePassword_none buffer]
  | some id =>
      rw [Prompting.releasePassword, buffer]
      refine List.map_congr_left fun other _ => ?_
      change (Function.update p.secrets id _ other).characters = _
      by_cases eq : other = id
      · rw [eq, Function.update_self]
        rfl
      · rw [Function.update_of_ne eq]

end MuTegra.FrontPage.Secrets
