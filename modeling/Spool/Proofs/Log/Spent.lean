import Spool.Proofs.Cache.Closed
import Spool.Proofs.Log.Requests

namespace Spool.Log

-- None of the caches has a page or hands one out.
def Spent (l : Log) : Prop :=
  ∀ f : Folder, (f.cache l).Spent

-- Why a closed log does not say what is at an index.
def refusal (l : Log) (index : UInt64) : Error :=
  match l.checkIndex index with
  | .error e => e
  | .ok () => .cacheClosed l.index.dir

theorem refusal_congr {l l' : Log} (hhead : l'.head = l.head) (htail : l'.tail = l.tail)
    (hdir : l'.index.dir = l.index.dir) (index : UInt64) : l'.refusal index = l.refusal index := by
  unfold refusal checkIndex contains size
  rw [hhead, htail, hdir]

section

variable {s : Host × Log} (h : s.2.Spent)

include h

theorem Spent.withPage (f : Folder) (page : UInt64) (access : Page.Access α) :
    Step.Ends (Step.inside f.part (Cache.withPage page access)) s
      (.error (.cacheClosed (f.cache s.2).dir)) (· = s) := by
  have hpage : Step.Ends (Cache.withPage page access) (s.1, f.cache s.2) _ _ := (h f).withPage page access
  rw [← Folder.get_part s f] at hpage
  refine Step.Ends.inside (hpage.mono ?_)
  rintro _ rfl
  rw [Folder.get_part, Folder.set_part_cache]

theorem Spent.readEntry (index : UInt64) :
    Step.Ends (Log.readEntry index) s (.error (.cacheClosed s.2.index.dir)) (· = s) :=
  (h.withPage .index _ _).bind_error

-- What needs the entry for an index is refused, for one reason or the other.
private theorem Spent.readEntry_bind {f : Entry → Action α} (index : UInt64) :
    Step.Ends (do
      let (_, l) ← get
      Step.ofExcept (l.checkIndex index)
      f (← Log.readEntry index)) s (.error (s.2.refusal index)) (· = s) := by
  unfold refusal
  cases hcheck : s.2.checkIndex index with
  | error e => exact ends_checked_error hcheck _
  | ok u => exact ends_checked hcheck (h.readEntry index).bind_error

theorem Spent.fetch (index : UInt64) :
    Step.Ends (Log.fetch index) s (.error (s.2.refusal index)) (· = s) :=
  h.readEntry_bind index

theorem Spent.timestampOf (index : UInt64) :
    Step.Ends (Log.timestampOf index) s (.error (s.2.refusal index)) (· = s) :=
  h.readEntry_bind index

theorem Spent.removeBefore (index : UInt64) :
    Step.Ends (Log.removeBefore index) s (.error (s.2.refusal index)) (· = s) :=
  h.readEntry_bind index

-- The cursor may have gone on to the next page.
theorem Spent.append (payload : Bytes) :
    ∃ e cursor, Step.Ends (Log.append payload) s (.error e) (· = (s.1, { s.2 with cursor })) := by
  by_cases hlong : s.2.dataPageSize < payload.length
  · refine ⟨.itemTooLarge payload.length s.2.dataPageSize, s.2.cursor, ?_⟩
    unfold Log.append
    refine Step.ends_get_bind ?_
    simp only [if_pos hlong]
    exact (Step.ends_throw rfl).bind_error
  · refine ⟨.cacheClosed s.2.data.dir, s.2.roll payload.length, ?_⟩
    unfold Log.append
    refine Step.ends_get_bind ?_
    simp only [if_neg hlong]
    refine (Step.ends_modify (Eq.refl _)).bind ?_
    rintro _ rfl
    have hmoved : Spent { s.2 with cursor := s.2.roll payload.length } :=
      Folder.forall_of (h .index) (h .data) (h .ends)
    exact (Spent.withPage (s := (s.1, _)) hmoved .data _ _).bind_error

-- Whatever becomes of the pages, the counters cannot be written.
theorem Spent.removeAll : ∃ e, (Log.removeAll.run s).1 = .error e := by
  have hparts : ∀ (f : Folder) (t : Host × Log), f ≠ .ends → t.2.ends = s.2.ends →
      ((Step.inside f.part Cache.deleteAll).run t).2.2.ends = s.2.ends := by
    intro f t hf ht
    rw [Step.run_inside, ← ht]
    exact (Folder.cache_set_part _ _ f .ends).trans (if_neg (Ne.symm hf))
  have hindex := hparts .index s (by decide) rfl
  have hdata := hparts .data ((Step.inside indexPart Cache.deleteAll).run s).2 (by decide) hindex
  unfold Log.removeAll
  rw [Step.run_bind]
  revert hindex hdata
  rcases (Step.inside indexPart Cache.deleteAll).run s with ⟨r, t⟩
  intro hindex hdata
  cases r with
  | error e => exact ⟨e, rfl⟩
  | ok _ =>
      show ∃ e, ((Step.inside dataPart Cache.deleteAll >>= _).run t).1 = .error e
      rw [Step.run_bind]
      revert hdata
      show ((Step.inside dataPart Cache.deleteAll).run t).2.2.ends = _ → _
      rcases (Step.inside dataPart Cache.deleteAll).run t with ⟨r', u⟩
      intro hdata
      cases r' with
      | error e => exact ⟨e, rfl⟩
      | ok _ =>
          have hspent : u.2.ends.Spent := by
            rw [show u.2.ends = s.2.ends from hdata]
            exact h .ends
          have hrefused : Step.Ends (Log.publish headPosition 0) u (.error (.cacheClosed u.2.ends.dir))
              fun _ => True := (hspent.withPage endsPage _).mono fun _ _ => trivial
          exact ⟨_, hrefused.bind_error.1⟩

theorem Spent.flush : Log.flush.run s = (.ok (), s) := by
  have hpart : ∀ f : Folder, (Step.inside f.part Cache.flush).run s = (.ok (), s) := fun f => by
    rw [Step.run_inside, Folder.get_part, (h f).run_flush, Folder.set_part_cache]
  have hindex : (Step.inside indexPart Cache.flush).run s = _ := hpart .index
  have hdata : (Step.inside dataPart Cache.flush).run s = _ := hpart .data
  unfold Log.flush
  rw [Step.run_bind_of_run hindex, Step.run_bind_of_run hdata]
  exact hpart .ends

theorem Spent.sweep_eq (now : Nat) : s.2.sweep now = s.2 := by
  have hindex : s.2.index.sweep now = s.2.index := (h .index).sweep_eq now
  have hdata : s.2.data.sweep now = s.2.data := (h .data).sweep_eq now
  have hends : s.2.ends.sweep now = s.2.ends := (h .ends).sweep_eq now
  rw [Log.sweep, hindex, hdata, hends]

theorem Spent.retired_eq : s.2.retired = s.2 := by
  have hindex : s.2.index.retired = s.2.index := (h .index).retired_eq
  have hdata : s.2.data.retired = s.2.data := (h .data).retired_eq
  have hends : s.2.ends.retired = s.2.ends := (h .ends).retired_eq
  rw [Log.retired, hindex, hdata, hends]

end

theorem Faces.spent_retired {base : Location} {s : Host × Log} {b : Books} (h : Faces base s b) :
    s.2.retired.Spent := fun f => by
  rw [Folder.cache_retired]
  exact Cache.spent_retired (h.copes f).notClosed

end Spool.Log
