import Mathlib.Logic.Relation
import RowQuery.Proofs.Engine.Tokens

/-!
Tokens in use. They are held by handles, and a token may have several, which are copies of each
other. Calls on the handles, in any order, derive tokens from tokens and cancel them. Which handles
are of cancelled tokens can be told from the calls alone.
-/

namespace RowQuery.Tokens

/-- Handles are told apart by their numbers, in the order in which they were given out. -/
inductive Call
  | new
  | clone (handle : Nat)
  | child (handle : Nat)
  | cancel (handle : Nat)

namespace Call

def on? : Call → Option Nat
  | new => none
  | clone handle | child handle | cancel handle => some handle

def gives : Call → Bool
  | cancel _ => false
  | _ => true

end Call

structure Held where
  tokens : Tokens := {}
  handles : List Nat := []

namespace Held

def apply (s : Held) : Call → Held
  | .new => { tokens := s.tokens.root, handles := s.handles ++ [s.tokens.size] }
  | .clone handle =>
    match s.handles[handle]? with
    | some token => { s with handles := s.handles ++ [token] }
    | none => s
  | .child handle =>
    match s.handles[handle]? with
    | some token => { tokens := s.tokens.derive token, handles := s.handles ++ [s.tokens.size] }
    | none => s
  | .cancel handle =>
    match s.handles[handle]? with
    | some token => { s with tokens := s.tokens.cancel token }
    | none => s

def run (s : Held) : List Call → Held
  | [] => s
  | call :: rest => run (s.apply call) rest

def isCancelled (s : Held) (handle : Nat) : Bool := s.handles[handle]?.any s.tokens.isCancelled

end Held

def given (calls : List Call) : List Call := calls.filter Call.gives

/-- All calls are on handles that are given out by then, `count` of them before the first call. -/
def Sound (count : Nat) : List Call → Prop
  | [] => True
  | call :: rest =>
    (∀ handle ∈ call.on?, handle < count) ∧ Sound (count + (given [call]).length) rest

instance decidableSound (count : Nat) : (calls : List Call) → Decidable (Sound count calls)
  | [] => .isTrue trivial
  | call :: rest =>
    have : Decidable (Sound (count + (given [call]).length) rest) := decidableSound _ rest
    inferInstanceAs (Decidable ((∀ handle ∈ call.on?, handle < count) ∧ _))

inductive Link (calls : List Call) (i j : Nat) : Prop
  | copy (made : (given calls)[i]? = some (.clone j))
  | original (made : (given calls)[j]? = some (.clone i))
  | derived (made : (given calls)[i]? = some (.child j))

/-- The first handle is of the token of the second one, or of a token below it. -/
def Under (calls : List Call) : Nat → Nat → Prop := Relation.ReflTransGen (Link calls)

variable {calls more : List Call} {call : Call} {s s' : Held} {i j k token above : Nat}

theorem given_append (calls more : List Call) : given (calls ++ more) = given calls ++ given more :=
  List.filter_append ..

theorem given_of_gives (gives : call.gives = true) : given [call] = [call] := by
  rw [given, List.filter_cons_of_pos gives, List.filter_nil]

theorem Link.mono (more : List Call) (link : Link calls i j) : Link (calls ++ more) i j := by
  have kept {k : Nat} {call : Call} (made : (given calls)[k]? = some call) :
      (given (calls ++ more))[k]? = some call := by
    obtain ⟨bound, -⟩ := List.getElem?_eq_some_iff.1 made
    rw [given_append, List.getElem?_append_left bound, made]
  cases link with
  | copy made => exact .copy (kept made)
  | original made => exact .original (kept made)
  | derived made => exact .derived (kept made)

theorem Under.mono (more : List Call) (under : Under calls i j) : Under (calls ++ more) i j :=
  Relation.ReflTransGen.mono (fun _ _ => Link.mono more) _ _ under

theorem given_cancel (calls : List Call) (handle : Nat) :
    given (calls ++ [.cancel handle]) = given calls := by
  rw [given_append]
  exact List.append_nil _

theorem Link.of_cancel (link : Link (calls ++ [.cancel k]) i j) : Link calls i j := by
  have same := given_cancel calls k
  cases link with
  | copy made => exact .copy (same ▸ made)
  | original made => exact .original (same ▸ made)
  | derived made => exact .derived (same ▸ made)

theorem Under.of_cancel (under : Under (calls ++ [.cancel k]) i j) : Under calls i j :=
  Relation.ReflTransGen.mono (fun _ _ => Link.of_cancel) _ _ under

inductive Makes (s : Held) (tokens : Tokens) : Call → Nat → Prop
  | new (alone : tokens.parent? s.tokens.size = none) : Makes s tokens .new s.tokens.size
  | clone {handle token : Nat} (held : s.handles[handle]? = some token) :
      Makes s tokens (.clone handle) token
  | child {handle above : Nat} (held : s.handles[handle]? = some above)
      (parent : tokens.parent? s.tokens.size = some above) :
        Makes s tokens (.child handle) s.tokens.size

structure Grows (s : Held) (call : Call) (token : Nat) (s' : Held) : Prop where
  handles : s'.handles = s.handles ++ [token]
  makes : Makes s s'.tokens call token
  size : s.tokens.size ≤ s'.tokens.size
  inside : token < s'.tokens.size
  parent? : ∀ k < s.tokens.size, s'.tokens.parent? k = s.tokens.parent? k
  flagged : ∀ k, s'.tokens.flagged k = s.tokens.flagged k

namespace Grows

variable (grows : Grows s call token s')
include grows

theorem last : s'.handles[s.handles.length]? = some token := by
  rw [grows.handles, List.getElem?_concat_length]

theorem old (held : s.handles[i]? = some k) : s'.handles[i]? = some k := by
  rw [grows.handles, List.getElem?_append_left (List.getElem?_eq_some_iff.1 held).1, held]

theorem cases (held : s'.handles[i]? = some k) :
    i = s.handles.length ∧ token = k ∨ s.handles[i]? = some k := by
  rw [grows.handles, getElem?_concat] at held
  split at held
  · next same => exact .inl ⟨same, Option.some.inj held⟩
  · exact .inr held

end Grows

/-- What the tokens know of the calls: every link between handles is one in the tree, and nothing is
linked or flagged there but by a call. -/
structure Told (calls : List Call) (s : Held) : Prop where
  length : s.handles.length = (given calls).length
  inside : ∀ token ∈ s.handles, token < s.tokens.size
  link : ∀ i j, Link calls i j →
    ∃ token above, s.handles[i]? = some token ∧ s.handles[j]? = some above ∧
    (token = above ∨ s.tokens.parent? token = some above)
  same : ∀ i j token, s.handles[i]? = some token → s.handles[j]? = some token → Under calls i j
  parent : ∀ i token above, s.handles[i]? = some token → s.tokens.parent? token = some above →
    ∃ j, s.handles[j]? = some above ∧ Under calls i j
  asked : ∀ i, .cancel i ∈ calls →
    ∃ token, s.handles[i]? = some token ∧ s.tokens.flagged token = true
  flagged : ∀ token, s.tokens.flagged token = true →
    ∃ i, s.handles[i]? = some token ∧ .cancel i ∈ calls

theorem Held.grows_apply (inside : ∀ token ∈ s.handles, token < s.tokens.size)
    (gives : call.gives = true) (sound : ∀ handle ∈ call.on?, handle < s.handles.length) :
    ∃ token, Grows s call token (s.apply call) := by
  have held {handle : Nat} (on : call.on? = some handle) :
      ∃ token, s.handles[handle]? = some token ∧ token < s.tokens.size := by
    have found := List.getElem?_eq_getElem (sound handle on)
    exact ⟨_, found, inside _ (List.mem_of_getElem? found)⟩
  cases call with
  | new =>
    refine ⟨s.tokens.size, ⟨rfl, .new ?_, ?_, ?_, ?_, s.tokens.flagged_root⟩⟩
    · rw [apply, parent?_root, if_pos rfl]
    · rw [apply, size_root]
      exact Nat.le_succ _
    · rw [apply, size_root]
      exact Nat.lt_succ_self _
    · intro k old
      rw [apply, parent?_root, if_neg (Nat.ne_of_lt old)]
  | clone handle =>
    obtain ⟨token, found, bound⟩ := held rfl
    rw [apply, found]
    exact ⟨token, rfl, .clone found, Nat.le_refl _, bound, fun _ _ => rfl, fun _ => rfl⟩
  | child handle =>
    obtain ⟨above, found, bound⟩ := held rfl
    rw [apply, found]
    refine ⟨s.tokens.size, ⟨rfl, .child found ?_, ?_, ?_, ?_, s.tokens.flagged_derive above⟩⟩
    · rw [parent?_derive bound, if_pos rfl]
    · rw [size_derive]
      exact Nat.le_succ _
    · rw [size_derive]
      exact Nat.lt_succ_self _
    · intro k old
      rw [parent?_derive bound, if_neg (Nat.ne_of_lt old)]
  | cancel => cases gives

namespace Told

variable (told : Told calls s)
include told

theorem bound (held : s.handles[i]? = some token) : token < s.tokens.size :=
  told.inside token (List.mem_of_getElem? held)

section

variable (gives : call.gives = true) (grows : Grows s call token s')

section

include gives

theorem number : (given (calls ++ [call]))[s.handles.length]? = some call := by
  rw [given_append, given_of_gives gives, told.length, List.getElem?_concat_length]

theorem link_cases (link : Link (calls ++ [call]) i j) : Link calls i j ∨
    (i = s.handles.length ∧ call.on? = some j) ∨ j = s.handles.length ∧ call = .clone i := by
  have made {k : Nat} {c : Call} (found : (given (calls ++ [call]))[k]? = some c) :
      (given calls)[k]? = some c ∨ k = s.handles.length ∧ call = c := by
    rw [given_append, given_of_gives gives, getElem?_concat, ← told.length] at found
    split at found
    · next last => exact .inr ⟨last, Option.some.inj found⟩
    · exact .inl found
  cases link with
  | copy h => exact (made h).imp .copy fun ⟨last, same⟩ => .inl ⟨last, same ▸ rfl⟩
  | original h => exact (made h).imp .original .inr
  | derived h => exact (made h).imp .derived fun ⟨last, same⟩ => .inl ⟨last, same ▸ rfl⟩

end

include grows

theorem copied (held : s.handles[i]? = some token) :
    ∃ j, call = .clone j ∧ s.handles[j]? = some token := by
  cases grows.makes with
  | new => exact absurd (told.bound held) (Nat.lt_irrefl _)
  | clone held => exact ⟨_, rfl, held⟩
  | child => exact absurd (told.bound held) (Nat.lt_irrefl _)

include gives

theorem gave_link (link : Link (calls ++ [call]) i j) :
    ∃ k above, s'.handles[i]? = some k ∧ s'.handles[j]? = some above ∧
    (k = above ∨ s'.tokens.parent? k = some above) := by
  rcases told.link_cases gives link with link | ⟨rfl, made⟩ | ⟨rfl, made⟩
  · obtain ⟨k, above, hi, hj, step⟩ := told.link i j link
    refine ⟨k, above, grows.old hi, grows.old hj, ?_⟩
    rw [grows.parent? k (told.bound hi)]
    exact step
  · cases grows.makes with
    | new => cases made
    | clone held =>
      cases made
      exact ⟨token, token, grows.last, grows.old held, .inl rfl⟩
    | child held parent =>
      cases made
      exact ⟨_, _, grows.last, grows.old held, .inr parent⟩
  · subst made
    cases grows.makes with
    | clone held => exact ⟨token, token, grows.old held, grows.last, .inl rfl⟩

theorem gave_same (hi : s'.handles[i]? = some k) (hj : s'.handles[j]? = some k) :
    Under (calls ++ [call]) i j := by
  have number := told.number gives
  rcases grows.cases hi with ⟨rfl, rfl⟩ | hi
  · rcases grows.cases hj with ⟨rfl, -⟩ | hj
    · exact .refl
    · obtain ⟨c, rfl, held⟩ := told.copied grows hj
      exact .head (.copy number) ((told.same c j token held hj).mono _)
  · rcases grows.cases hj with ⟨rfl, rfl⟩ | hj
    · obtain ⟨c, rfl, held⟩ := told.copied grows hi
      exact .tail ((told.same i c token hi held).mono _) (.original number)
    · exact (told.same i j k hi hj).mono _

theorem gave_parent (hi : s'.handles[i]? = some k) (parent : s'.tokens.parent? k = some above) :
    ∃ j, s'.handles[j]? = some above ∧ Under (calls ++ [call]) i j := by
  have number := told.number gives
  rcases grows.cases hi with ⟨rfl, rfl⟩ | hi
  · cases grows.makes with
    | new alone => cases alone.symm.trans parent
    | clone held =>
      rw [grows.parent? token (told.bound held)] at parent
      obtain ⟨j, hj, under⟩ := told.parent _ token above held parent
      exact ⟨j, grows.old hj, .head (.copy number) (under.mono _)⟩
    | child held parent' =>
      obtain rfl := Option.some.inj (parent'.symm.trans parent)
      exact ⟨_, grows.old held, .single (.derived number)⟩
  · rw [grows.parent? k (told.bound hi)] at parent
    obtain ⟨j, hj, under⟩ := told.parent i k above hi parent
    exact ⟨j, grows.old hj, under.mono _⟩

theorem gave : Told (calls ++ [call]) s' where
  length := by
    rw [grows.handles, given_append, given_of_gives gives, List.length_append, List.length_append,
      told.length]
    rfl
  inside := by
    rw [grows.handles, List.forall_mem_append, List.forall_mem_singleton]
    exact ⟨fun k h => Nat.lt_of_lt_of_le (told.inside k h) grows.size, grows.inside⟩
  link _ _ := told.gave_link gives grows
  same _ _ _ := told.gave_same gives grows
  parent _ _ _ := told.gave_parent gives grows
  asked i asked := by
    rcases List.mem_append.1 asked with asked | asked
    · obtain ⟨k, hi, flag⟩ := told.asked i asked
      exact ⟨k, grows.old hi, (grows.flagged k).trans flag⟩
    · cases List.mem_singleton.1 asked
      cases gives
  flagged k flag := by
    obtain ⟨i, hi, asked⟩ := told.flagged k ((grows.flagged k).symm.trans flag)
    exact ⟨i, grows.old hi, List.mem_append_left _ asked⟩

end

theorem cancelled (held : s.handles[i]? = some token) :
    Told (calls ++ [.cancel i]) (s.apply (.cancel i)) := by
  have flags := flagged_cancel (told.bound held)
  rw [Held.apply, held]
  refine ⟨?_, ?_, ?_, ?_, ?_, ?_, ?_⟩
  · rw [given_cancel, told.length]
  · intro k h
    rw [size_cancel]
    exact told.inside k h
  · intro j k link
    simp only [parent?_cancel]
    exact told.link j k link.of_cancel
  · intro j k token hj hk
    exact (told.same j k token hj hk).mono _
  · intro j k above hj parent
    rw [parent?_cancel] at parent
    obtain ⟨h, held, under⟩ := told.parent j k above hj parent
    exact ⟨h, held, under.mono _⟩
  · intro j asked
    simp only [flags, Bool.or_eq_true, decide_eq_true_eq]
    rcases List.mem_append.1 asked with asked | asked
    · obtain ⟨k, hj, flag⟩ := told.asked j asked
      exact ⟨k, hj, .inl flag⟩
    · cases List.mem_singleton.1 asked
      exact ⟨token, held, .inr rfl⟩
  · intro k flag
    rw [flags, Bool.or_eq_true, decide_eq_true_eq] at flag
    rcases flag with flag | rfl
    · obtain ⟨j, hj, asked⟩ := told.flagged k flag
      exact ⟨j, hj, List.mem_append_left _ asked⟩
    · exact ⟨i, held, List.mem_append_right _ (List.mem_singleton_self _)⟩

theorem apply (sound : ∀ handle ∈ call.on?, handle < s.handles.length) :
    Told (calls ++ [call]) (s.apply call) := by
  cases gives : call.gives with
  | true =>
    obtain ⟨token, grows⟩ := Held.grows_apply told.inside gives sound
    exact told.gave gives grows
  | false =>
    cases call with
    | cancel i => exact told.cancelled (List.getElem?_eq_getElem (sound i rfl))
    | new | clone | child => cases gives

theorem run (sound : Sound s.handles.length more) : Told (calls ++ more) (s.run more) := by
  induction more generalizing calls s with
  | nil =>
    rw [List.append_nil]
    exact told
  | cons call more ih =>
    obtain ⟨first, rest⟩ := sound
    have next := told.apply first
    have count : (s.apply call).handles.length = s.handles.length + (given [call]).length := by
      rw [next.length, given_append, List.length_append, told.length]
    rw [List.append_cons]
    exact ih next (count ▸ rest)

-- the induction goes up from the token, which was made after those above it
theorem asked_of_isCancelled (cancelled : s.tokens.isCancelled token = true)
    (held : s.handles[i]? = some token) : ∃ j, Under calls i j ∧ .cancel j ∈ calls := by
  induction token using Nat.strongRecOn generalizing i with
  | _ token ih =>
    rw [isCancelled_eq, Bool.or_eq_true] at cancelled
    rcases cancelled with flag | cancelled
    · obtain ⟨j, hj, asked⟩ := told.flagged token flag
      exact ⟨j, told.same i j token held hj, asked⟩
    · obtain ⟨above, parent, cancelled⟩ := (Option.any_eq_true _ _).1 cancelled
      obtain ⟨k, hk, under⟩ := told.parent i token above held parent
      obtain ⟨j, further, asked⟩ := ih above (parent?_lt parent) cancelled hk
      exact ⟨j, under.trans further, asked⟩

theorem isCancelled_of_asked (under : Under calls i j) (asked : .cancel j ∈ calls) :
    s.isCancelled i = true := by
  induction under using Relation.ReflTransGen.head_induction_on with
  | refl =>
    obtain ⟨token, held, flag⟩ := told.asked j asked
    rw [Held.isCancelled, held, Option.any_some, isCancelled_eq, flag, Bool.true_or]
  | head link _ ih =>
    obtain ⟨token, above, held, heldAbove, step⟩ := told.link _ _ link
    rw [Held.isCancelled, heldAbove, Option.any_some] at ih
    rw [Held.isCancelled, held, Option.any_some]
    rcases step with rfl | parent
    · exact ih
    · rw [isCancelled_eq, parent, Option.any_some, ih, Bool.or_true]

theorem isCancelled_iff : s.isCancelled i = true ↔ ∃ j, Under calls i j ∧ .cancel j ∈ calls := by
  constructor
  · intro cancelled
    obtain ⟨token, held, cancelled⟩ := (Option.any_eq_true _ _).1 cancelled
    exact told.asked_of_isCancelled cancelled held
  · rintro ⟨j, under, asked⟩
    exact told.isCancelled_of_asked under asked

end Told

theorem told_start : Told [] {} := by
  have none {i j : Nat} (link : Link [] i j) : False := by
    cases link with
    | copy made | original made | derived made => cases made
  exact ⟨rfl, nofun, fun _ _ link => (none link).elim, nofun, nofun, nofun, nofun⟩

namespace Held

theorem isCancelled_mono {s s' : Held} (later : s.tokens.Later s'.tokens)
    (kept : s.handles <+: s'.handles) (cancelled : s.isCancelled i = true) :
    s'.isCancelled i = true := by
  obtain ⟨more, handles⟩ := kept
  obtain ⟨token, held, cancelled⟩ := (Option.any_eq_true _ _).1 cancelled
  obtain ⟨bound, -⟩ := List.getElem?_eq_some_iff.1 held
  rw [isCancelled, ← handles, List.getElem?_append_left bound, held, Option.any_some]
  exact later.isCancelled cancelled

theorem isCancelled_apply (call : Call) (cancelled : s.isCancelled i = true) :
    (s.apply call).isCancelled i = true := by
  fun_cases apply s call with
  | case1 => exact isCancelled_mono (later_root _) (List.prefix_append _ _) cancelled
  | case2 => exact isCancelled_mono (.refl s.tokens) (List.prefix_append _ _) cancelled
  | case4 => exact isCancelled_mono (later_derive _ _) (List.prefix_append _ _) cancelled
  | case6 => exact isCancelled_mono (later_cancel _ _) (List.prefix_refl _) cancelled
  | case3 | case5 | case7 => exact cancelled

theorem isCancelled_run_of (more : List Call) (cancelled : s.isCancelled i = true) :
    (s.run more).isCancelled i = true := by
  induction more generalizing s with
  | nil => exact cancelled
  | cons call more ih => exact ih (isCancelled_apply call cancelled)

end Held

/-- After any calls, a handle is of a cancelled token exactly when a call has cancelled a token that
it is under, before or after the handle was given out. So a call that cancels makes no difference to
the handles that are not under its own, and no later call to those that are cancelled. Each token is
above those on its way, and the way ends at a root. -/
theorem isCancelled_iff_asked (calls : List Call) (sound : Sound 0 calls) :
    let s := Held.run {} calls
    (∀ i, s.isCancelled i = true ↔ ∃ j, Under calls i j ∧ .cancel j ∈ calls) ∧
    (∀ i j, ¬ Under calls i j → (s.apply (.cancel j)).isCancelled i = s.isCancelled i) ∧
    (∀ more i, s.isCancelled i = true → (s.run more).isCancelled i = true) ∧
    ∀ token ∈ s.handles, ∃ way, s.tokens.Way token way ∧ way.Pairwise (· > ·) ∧
      s.tokens.isCancelled token = way.any s.tokens.flagged := by
  intro s
  have told : Told calls s := told_start.run sound
  refine ⟨fun i => told.isCancelled_iff, fun i j apart => ?_,
    fun more i => Held.isCancelled_run_of more,
    fun token _ => exists_way s.tokens token⟩
  cases held : s.handles[j]? with
  | none => rw [Held.apply, held]
  | some token =>
    rw [Bool.eq_iff_iff, (told.cancelled held).isCancelled_iff, told.isCancelled_iff]
    constructor
    · rintro ⟨k, under, asked⟩
      rcases List.mem_append.1 asked with asked | asked
      · exact ⟨k, under.of_cancel, asked⟩
      · cases List.mem_singleton.1 asked
        exact absurd under.of_cancel apart
    · rintro ⟨k, under, asked⟩
      exact ⟨k, under.mono _, List.mem_append_left _ asked⟩

theorem isCancelled_iff_asked_copies :
    let calls : List Call :=
      [.new, .clone 0, .child 0, .cancel 1, .child 1, .new, .child 4, .cancel 5]
    let s := Held.run {} calls
    Sound 0 calls ∧ (List.range 6).map s.isCancelled = [true, true, true, true, false, true] ∧
      (∃ j, Under calls 3 j ∧ .cancel j ∈ calls) ∧ ¬ Under calls 4 5 ∧
      (s.apply (.cancel 5)).isCancelled 4 = false ∧
      (s.run [.child 2, .cancel 4]).isCancelled 2 = true := by
  intro calls s
  have sound : Sound 0 calls := by decide
  have answers : (List.range 6).map s.isCancelled = [true, true, true, true, false, true] := by cbv
  obtain ⟨iff, others, final, -⟩ := isCancelled_iff_asked calls sound
  have active : s.isCancelled 4 = false := by cbv
  have apart : ¬ Under calls 4 5 := fun under =>
    Bool.false_ne_true (active.symm.trans ((iff 4).2 ⟨5, under, by simp [calls]⟩))
  exact ⟨sound, answers, (iff 3).1 (by cbv), apart, (others 4 5 apart).trans active,
    final _ 2 (by cbv)⟩

end RowQuery.Tokens
