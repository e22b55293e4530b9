import Spool.Proofs.Log.Caching
import Spool.Proofs.Log.Removal

namespace Spool.Log

-- A log that was closed, on a disk that is in order.
structure Idle (s : Host × Log) : Prop where
  wellFormed : s.1.disk.WellFormed
  spent : s.2.Spent
  indexPageSize : s.2.index.pageSize = Entry.pageSize

inductive Abides (dir : Path) (s : Host × Log) : Prop
  | open (h : Fits dir s)
  | closed (h : Idle s)

section

variable {dir : Path} {s : Host × Log} {host host' : Host} {l : Log} {dataPageSize : Nat} {policy : CachePolicy}

namespace Fits

theorem twins (h : Fits dir s) : Twins dir s s :=
  ⟨rfl, ⟨rfl, rfl, rfl, rfl⟩, h, h⟩

theorem of_respects {x : Action α} (h : Fits dir s) (hrespects : Step.Respects (Twins dir) x) :
    Fits dir (x.run s).2 :=
  (hrespects s s h.twins).2.left

theorem atTime (h : Fits dir s) (now : Nat) : Fits dir (Log.atTime now s) :=
  ⟨h.wellFormed, h.dataPageSize_pos, h.mirrors⟩

theorem retired (h : Fits dir s) : Idle (s.1, s.2.retired) where
  wellFormed := h.wellFormed
  spent f := by
    rw [Folder.cache_retired]
    exact Cache.spent_retired (h.mirrors f).notClosed
  indexPageSize := by
    obtain ⟨pages, hshut⟩ := s.2.index.shut_eq
    have hretired : s.2.index.retired = s.2.index.shut := Cache.retired_of_open (h.mirrors .index).notClosed
    show s.2.index.retired.pageSize = _
    rw [hretired, hshut]
    exact (h.mirrors .index).pageSize_eq

end Fits

namespace Idle

theorem recount (h : Idle s) (head tail : UInt64) (cursor : Cursor) :
    Idle (s.1, { s.2 with head, tail, cursor }) where
  wellFormed := h.wellFormed
  spent f := by
    have hspent := h.spent f
    cases f <;> exact hspent
  indexPageSize := h.indexPageSize

theorem keeps_withPage (f : Folder) (page : UInt64) (access : Page.Access α) :
    Step.Keeps Idle (Step.inside f.part (Cache.withPage page access)) := by
  intro s h
  rw [(h.spent.withPage f page access).2]
  exact h

theorem keeps_deleteWhere (f : Folder) (asked : UInt64 → Bool) :
    Step.Keeps Idle (Step.inside f.part (Cache.deleteWhere asked)) := by
  intro s h
  obtain ⟨hwf, hcache⟩ := (h.spent f).keeps_deleteWhere asked (s.1, f.cache s.2) ⟨h.wellFormed, rfl⟩
  rw [Step.run_inside, Folder.get_part]
  generalize (Cache.deleteWhere asked).run (s.1, f.cache s.2) = out at hwf hcache ⊢
  obtain ⟨r, host, c⟩ := out
  obtain rfl : c = f.cache s.2 := hcache
  show Idle (f.part.set (host, f.cache s.2) s)
  rw [Folder.set_part_cache]
  exact ⟨hwf, h.spent, h.indexPageSize⟩

theorem keeps_removeAll : Step.Keeps Idle Log.removeAll :=
  (keeps_deleteWhere .index _).bind fun _ => (keeps_deleteWhere .data _).bind fun _ =>
    (keeps_withPage .ends _ _).bind fun _ => (keeps_withPage .ends _ _).bind fun _ =>
      Step.keeps_modify fun _ h => h.recount _ _ _

theorem request (h : Idle s) (r : Request) : Idle (r.perform.run s).2 := by
  have hsame : ∀ t, t = s → Idle t := fun _ ht => ht ▸ h
  cases r with
  | append payload =>
      obtain ⟨e, cursor, hends⟩ := h.spent.append payload
      exact ((hends.map Reply.index).mono fun t ht => ht ▸ h.recount _ _ cursor).2
  | fetch index => exact (((h.spent.fetch index).mono hsame).map Reply.payload).2
  | timestampOf index => exact (((h.spent.timestampOf index).mono hsame).map Reply.time).2
  | removeAll => exact keeps_removeAll.bind (fun _ => Step.keeps_pure _) s h
  | removeBefore index => exact (((h.spent.removeBefore index).mono hsame).map fun _ => Reply.done).2
  | dataPages => exact (((ends_look _ s).mono hsame).map Reply.pages).2
  | diskUsage => exact (((ends_look _ s).mono hsame).map Reply.bytes).2
  | flush =>
      have hflush : Step.Ends Log.flush s (.ok ()) Idle := by
        unfold Step.Ends
        rw [h.spent.flush]
        exact ⟨rfl, h⟩
      exact (hflush.map fun _ => Reply.done).2

end Idle

theorem keeps_wellFormed_settle (policy : CachePolicy) (folder : Path) :
    Step.Keeps (fun host : Host => host.disk.WellFormed) (Cache.settle policy folder) :=
  fun _ hwf => (agree_settle folder policy policy ⟨rfl, hwf⟩).2.2

theorem wellFormed_settle {folder : Path} {r : Except Error Nat} (hwf : host.disk.WellFormed)
    (h : (Cache.settle policy folder).run host = (r, host')) : host'.disk.WellFormed := by
  have hkept := keeps_wellFormed_settle policy folder host hwf
  rwa [h] at hkept

-- A log that could be opened fits its files.
theorem fits_open (hwf : host.disk.WellFormed)
    (h : (Log.open dir dataPageSize policy).run host = (.ok l, host')) : Fits dir (host', l) := by
  by_cases hsize : 0 < dataPageSize ∧ dataPageSize ≤ maxDataPageSize
  · rw [open_eq hsize.1 hsize.2] at h
    obtain ⟨index, host₁, hindex, h⟩ := Step.run_bind_eq_ok_iff.mp h
    obtain ⟨data, host₂, hdata, h⟩ := Step.run_bind_eq_ok_iff.mp h
    obtain ⟨ends, host₃, hends, h⟩ := Step.run_bind_eq_ok_iff.mp h
    have hwf₃ := wellFormed_settle (wellFormed_settle (wellFormed_settle hwf hindex) hdata) hends
    have hfresh : Fits dir (host₃, fresh dir dataPageSize policy index data ends) :=
      fits_fresh hwf₃ hsize.1 policy index data ends
    have hfits := hfresh.of_respects respects_recover
    obtain ⟨⟨_, l'⟩, host₄, hbeside, h⟩ := Step.run_bind_eq_ok_iff.mp h
    obtain ⟨hl, hhost⟩ := Prod.mk.inj h
    cases hl
    cases hhost
    unfold Step.beside at hbeside
    rw [Step.run_ofRun] at hbeside
    generalize recover.run (host₃, fresh dir dataPageSize policy index data ends) = out at hbeside hfits
    rcases out with ⟨_ | _, _, _⟩
    · cases hbeside
    · cases hbeside
      exact hfits
  · unfold Log.open at h
    rw [if_pos (by omega)] at h
    cases h

-- Whether or not it could be opened, the disk stays in order.
theorem keeps_wellFormed_open (dir : Path) (dataPageSize : Nat) (policy : CachePolicy) :
    Step.Keeps (fun host : Host => host.disk.WellFormed) (Log.open dir dataPageSize policy) := by
  by_cases hsize : 0 < dataPageSize ∧ dataPageSize ≤ maxDataPageSize
  · rw [open_eq hsize.1 hsize.2]
    refine (keeps_wellFormed_settle _ _).bind fun index => (keeps_wellFormed_settle _ _).bind fun data =>
      (keeps_wellFormed_settle _ _).bind fun ends => ?_
    refine (Step.keeps_beside _ fun host hwf => ?_).bind fun _ => Step.keeps_pure _
    exact ((fits_fresh hwf hsize.1 policy index data ends).of_respects respects_recover).wellFormed
  · unfold Log.open
    rw [if_pos (by omega)]
    exact fun _ hwf => hwf

namespace Abides

theorem retired (h : Abides dir s) : Idle (s.1, s.2.retired) := by
  cases h with
  | «open» h => exact h.retired
  | closed h =>
      rw [h.spent.retired_eq]
      exact h

-- If the log cannot be opened again, it stays closed.
theorem reopen (h : Abides dir s) (dataPageSize : Nat) (policy : CachePolicy) :
    Abides dir ((Log.reopen dir dataPageSize policy).run s).2 := by
  have hidle := h.retired
  have hwf := keeps_wellFormed_open dir dataPageSize policy s.1 hidle.wellFormed
  unfold Log.reopen
  rw [Step.run_bind_of_run (run_close_attempt s), Step.run_bind, Step.run_inside]
  dsimp only [Part.host]
  cases hopen : (Log.open dir dataPageSize policy).run s.1 with | mk r host
  rw [hopen] at hwf
  cases r with
  | error e => exact .closed ⟨hwf, hidle.spent, hidle.indexPageSize⟩
  | ok l => exact .open (fits_open hidle.wellFormed hopen)

theorem act (h : Abides dir s) (a : Act) : Abides dir ((a.perform dir).run s).2 := by
  cases a with
  | request r =>
      show Abides dir ((discard r.perform : Action PUnit).run s).2
      rw [Step.snd_run_discard]
      cases h with
      | «open» h => exact .open (h.of_respects (respects_request r))
      | closed h => exact .closed (h.request r)
  | pass nanos =>
      cases h with
      | «open» h => exact .open ((h.atTime _).upkeep (.sweep _)).fits
      | closed h =>
          refine .closed ?_
          show Idle ({ s.1 with now := s.1.now + nanos }, s.2.sweep (s.1.now + nanos))
          rw [h.spent.sweep_eq]
          exact ⟨h.wellFormed, h.spent, h.indexPageSize⟩
  | close =>
      show Abides dir (Log.close.run s).2
      rw [snd_run_close]
      exact .closed h.retired
  | reopen dataPageSize policy => exact h.reopen dataPageSize policy

end Abides

end

end Spool.Log
