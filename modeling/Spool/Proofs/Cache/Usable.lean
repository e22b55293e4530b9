import Spool.Proofs.Cache.Custody
import Spool.Proofs.Cache.Delete
import Spool.Proofs.Page.Calls

namespace Spool.Cache

-- Whatever is asked of a cache or of a page that it handed out, and whatever happens to the disk.
inductive Use where
  | event (e : Event)
  | sweep (now : Nat)
  | call (id : PageId) (c : Page.Call)
  | settle (id : PageId) (x : Page.Settling)
  | readInto (id : PageId) (position : Nat) (buffer : Bytes)
  | others (change : Disk → Disk)

namespace Use

def perform : Use → Action Unit
  | event e => e.perform
  | sweep now => modify fun s => ({ s.1 with now }, s.2.sweep now)
  | call id c => discard (onPage id c.access)
  | settle id x => settlePage id x.settle
  | readInto id position buffer => discard (onPage id fun p d =>
      .ok ((p.readInto d position).run buffer, p, d))
  | others change => modify fun s => ({ s.1 with disk := change s.1.disk }, s.2)

-- The page that its holder closes. One that somebody still holds stays open.
def closes? (s : Host × Cache) : Use → Option PageId
  | settle id .close => (s.2.page? id).bind fun p => if p.holders = 0 then some id else none
  | _ => none

end Use

-- The pages that were closed by their holders in a run.
def closings : List Use → Host × Cache → List PageId
  | [], _ => []
  | u :: us, s => (u.closes? s).toList ++ closings us (u.perform.run s).2

-- Whatever page is handed out next, it can be read from end to end, in stretches that a buffer holds.
def Usable (s : Host × Cache) : Prop :=
  ∀ (index : UInt64) (id : PageId) (t : Host × Cache), (acquire index).run s = (.ok id, t) →
    ∃ p, t.2.page? id = some p ∧ p.isOpen = true ∧
      ∀ position length, position + length ≤ p.size → length ≤ Page.maxBuffer →
        ∃ data, ((onPage id (Page.read position length)).run t).1 = .ok data

-- The cache has the page of every number that it knows. Those that are closed were closed by a holder.
structure Shelved (pageSize : Nat) (shut : List PageId) (c : Cache) : Prop where
  pageSize_eq : c.pageSize = pageSize
  resident : ∀ {index : UInt64} {r : Resident}, c.resident[index]? = some r →
    ∃ p, c.page? r.page = some p ∧ p.index = index ∧ p.size = pageSize ∧
      (p.isOpen = true ↔ r.page ∉ shut)
  issued : ∀ id ∈ shut, id < c.pages.size

-- What is handed out by a cache some of whose pages were closed by their holders.
structure Tended (pageSize : Nat) (shut : List PageId) (s : Host × Cache) : Prop where
  handed : ∀ {index : UInt64} {id : PageId} {t : Host × Cache}, (acquire index).run s = (.ok id, t) →
    ∃ p, t.2.page? id = some p ∧ p.index = index ∧ p.size = pageSize ∧ (p.isOpen = true ↔ id ∉ shut) ∧
      ∀ position length, position + length ≤ pageSize →
        ((onPage id (Page.read position length)).run t).1 =
          if Page.maxBuffer < length then .error (.panicked "capacity overflow")
          else if id ∈ shut then .error (.pageClosed index)
          else .ok ((p.content t.1.disk).read position length)
  resident : ∀ {index : UInt64} {r : Resident}, s.2.resident[index]? = some r →
    ∃ p, s.2.page? r.page = some p ∧ (p.isOpen = true ↔ r.page ∉ shut)
  usable_iff : Usable s ↔
    ∀ (index : UInt64) (r : Resident), s.2.resident[index]? = some r → r.page ∉ shut

section

variable {c c' : Cache} {s t : Host × Cache} {pageSize : Nat} {shut : List PageId} {id : PageId} {p : Page}
  {index : UInt64} {r : Resident}

-- What is mapped is a page of its file as it was asked for.
theorem eq_fresh_of_map {path : Path} {size : Nat} {host host' : Host}
    (hmap : (Page.map path index size).run host = (.ok p, host')) :
    ∃ file, p = Page.fresh path index size file := by
  rw [Page.run_map] at hmap
  split at hmap
  · cases hmap
  split at hmap
  · cases hmap
  split at hmap
  · cases hmap
  · cases hmap
    exact ⟨_, rfl⟩

theorem acquire_of_resident (hr : s.2.resident[index]? = some r) : (acquire index).run s =
    (.ok r.page, (s.1, (s.2.modifyPage r.page Page.retain).touch s.1.now index r.page)) := by
  unfold acquire retain?
  rw [Step.run_bind_of_run (Step.run_get s)]
  simp only [hr]
  rfl

-- A page of the cache is handed out, or a new one, or the cache stays as it is.
theorem acquire_cases (s : Host × Cache) (index : UInt64) :
    (∃ e host, (acquire index).run s = (.error e, (host, s.2))) ∨
    (∃ r, s.2.resident[index]? = some r ∧ (acquire index).run s =
      (.ok r.page, (s.1, (s.2.modifyPage r.page Page.retain).touch s.1.now index r.page))) ∨
    ∃ host file, (acquire index).run s = (.ok s.2.pages.size,
      (host, (s.2.takeIn host.now (Page.fresh (s.2.pagePath index) index s.2.pageSize file)).2)) := by
  cases hr : s.2.resident[index]? with
  | some r => exact .inr (.inl ⟨r, rfl, acquire_of_resident hr⟩)
  | none =>
      unfold acquire retain?
      rw [Step.run_bind_of_run (Step.run_get s)]
      simp only [hr]
      cases hclosed : s.2.closed with
      | true => exact .inl ⟨_, _, rfl⟩
      | false =>
          simp only [Bool.false_eq_true, if_false]
          rw [Step.run_bind, Step.run_inside]
          cases hmap : (Page.map (s.2.pagePath index) index s.2.pageSize).run s.1 with | mk result host
          rw [show Part.host.get s = s.1 from rfl, hmap]
          cases result with
          | error e => exact .inl ⟨e, host, rfl⟩
          | ok p =>
              obtain ⟨file, rfl⟩ := eq_fresh_of_map hmap
              exact .inr (.inr ⟨host, file, rfl⟩)

namespace Shelved

theorem of_empty (hsize : c.pageSize = pageSize) (hresident : c.resident = ∅)
    (hissued : ∀ id ∈ shut, id < c.pages.size) : c.Shelved pageSize shut where
  pageSize_eq := hsize
  resident hr := by
    rw [hresident] at hr
    simp at hr
  issued := hissued

variable (h : c.Shelved pageSize shut)

include h

-- A page is there for one number only.
theorem index_eq {other : UInt64} {r' : Resident} (hr : c.resident[index]? = some r)
    (hr' : c.resident[other]? = some r') (hsame : r.page = r'.page) : index = other := by
  obtain ⟨p, hp, hindex, -⟩ := h.resident hr
  obtain ⟨p', hp', hindex', -⟩ := h.resident hr'
  rw [hsame, hp'] at hp
  cases hp
  exact hindex.symm.trans hindex'

theorem modifyPage (id : PageId) {f : Page → Page} (hf : ∀ p, c.page? id = some p → p.Alike (f p)) :
    (c.modifyPage id f).Shelved pageSize shut where
  pageSize_eq := h.pageSize_eq
  resident hr := by
    obtain ⟨p, hp, hindex, hsize, hopen⟩ := h.resident hr
    rw [page?_modifyPage]
    split
    · next hid =>
      have halike := hf p (hid ▸ hp)
      rw [hp]
      exact ⟨f p, rfl, halike.index.trans hindex, halike.size.trans hsize, halike.isOpen ▸ hopen⟩
    · exact ⟨p, hp, hindex, hsize, hopen⟩
  issued other hother := by
    show other < (c.pages.modify id f).size
    rw [Array.size_modify]
    exact h.issued other hother

-- The holder of a page closes it.
theorem unmap (hp : c.page? id = some p) {f : Page → Page} (hf : f p = p.unmap) :
    (c.modifyPage id f).Shelved pageSize (shut ++ [id]) where
  pageSize_eq := h.pageSize_eq
  resident {index r} hr := by
    obtain ⟨q, hq, hindex, hsize, hopen⟩ := h.resident hr
    by_cases hid : r.page = id
    · rw [← hid] at hp ⊢
      cases hp.symm.trans hq
      have hindex' := (Page.shuts_unmap p).index
      refine ⟨p.unmap, hf ▸ page?_modifyPage_self hp f, hindex'.trans hindex, ?_, ?_⟩
      · exact (Page.size_unmap p).trans hsize
      · rw [Page.isOpen_unmap]
        simp
    · rw [page?_modifyPage, if_neg hid]
      refine ⟨q, hq, hindex, hsize, hopen.trans ?_⟩
      simp [hid]
  issued other hother := by
    show other < (c.pages.modify id _).size
    rw [Array.size_modify]
    rcases List.mem_append.mp hother with hother | hother
    · exact h.issued other hother
    · rw [List.mem_singleton.mp hother]
      exact lt_size_of_page? hp

theorem touch (hr : c.resident[index]? = some r) (now : Nat) :
    (c.touch now index r.page).Shelved pageSize shut where
  pageSize_eq := h.pageSize_eq
  resident {other r'} hr' := by
    rw [getElem?_resident_touch] at hr'
    split at hr'
    · next hother =>
      cases hr'
      obtain ⟨p, hp, hindex, hfacts⟩ := h.resident hr
      exact ⟨p, hp, hindex.trans hother, hfacts⟩
    · exact h.resident hr'
  issued := h.issued

theorem takeIn (hsize : p.size = pageSize) (hopen : p.isOpen = true) (now : Nat) :
    (c.takeIn now p).2.Shelved pageSize shut where
  pageSize_eq := h.pageSize_eq
  resident {index r} hr := by
    rw [getElem?_resident_takeIn] at hr
    rw [page?_takeIn_eq]
    split at hr
    · next hindex =>
      cases hr
      refine ⟨p.retain, if_pos rfl, hindex, hsize, iff_of_true hopen fun hshut => ?_⟩
      exact Nat.lt_irrefl _ (h.issued _ hshut)
    · obtain ⟨q, hq, hfacts⟩ := h.resident hr
      rw [if_neg (Nat.ne_of_lt (lt_size_of_page? hq))]
      exact ⟨q, hq, hfacts⟩
  issued other hother := by
    show other < (c.pages.push _).size
    rw [Array.size_push]
    exact Nat.lt_succ_of_lt (h.issued other hother)

-- The pages of other numbers are not closed with the one that goes.
theorem page?_uncache {other : UInt64} (hr : c.resident[other]? = some r) (hne : other ≠ index) :
    (c.uncache index).page? r.page = c.page? r.page := by
  unfold Cache.uncache
  cases hgone : c.resident[index]? with
  | none => rfl
  | some r' =>
      show (c.modifyPage r'.page Page.unmap).page? r.page = _
      rw [page?_modifyPage, if_neg]
      exact fun hsame => hne (h.index_eq hr hgone hsame)

theorem uncache (index : UInt64) : (c.uncache index).Shelved pageSize shut where
  pageSize_eq := by
    obtain ⟨pages, resident, hsame⟩ := restocks_uncache c index
    rw [hsame]
    exact h.pageSize_eq
  resident {other r} hr := by
    rw [getElem?_resident_uncache] at hr
    split at hr
    · cases hr
    · next hne =>
      rw [h.page?_uncache hr hne]
      exact h.resident hr
  issued other hother := by
    have hsize : (c.uncache index).pages.size = c.pages.size := by
      unfold Cache.uncache
      split
      · rfl
      · exact Array.size_modify
    rw [hsize]
    exact h.issued other hother

theorem flushed (d : Disk) : (c.flushed d).Shelved pageSize shut :=
  List.foldlRecOn _ _ h fun _ hc r _ => hc.modifyPage r.page fun p _ => Page.alike_flush p d

theorem emptied : c.emptied.Shelved pageSize shut := by
  obtain ⟨pages, heq, hsize⟩ := foldl_modifyPage_eq Page.unmap c.resident.values c
  unfold Cache.emptied
  rw [heq]
  exact of_empty h.pageSize_eq rfl fun id hid => hsize.symm ▸ h.issued id hid

theorem shutDown : c.shut.Shelved pageSize shut := by
  have hopen : { c with closed := true }.Shelved pageSize shut := ⟨h.pageSize_eq, h.resident, h.issued⟩
  exact hopen.emptied

theorem evictIdle (now : Nat) : (c.evictIdle now).Shelved pageSize shut := by
  unfold Cache.evictIdle
  split
  · exact h
  · exact List.foldlRecOn _ _ h fun _ hc entry _ => hc.uncache entry.1

theorem sweep (now : Nat) : (c.sweep now).Shelved pageSize shut := by
  unfold Cache.sweep
  split
  · exact h
  · split
    · exact h
    · obtain ⟨hsize, hresident, hissued⟩ := h.evictIdle now
      exact ⟨hsize, hresident, hissued⟩

theorem release (now : Nat) (id : PageId) : (c.release now id).Shelved pageSize shut := by
  unfold Cache.release
  cases hp : c.page? id with
  | none => exact h
  | some p =>
      dsimp only
      split
      · next hresident =>
        obtain ⟨r, hr, rfl⟩ := isResident_iff.mp hresident
        exact (h.touch hr now).modifyPage _ fun p _ => Page.alike_release p
      · exact h.modifyPage _ fun p _ => Page.alike_release p

end Shelved

section Keeps

theorem keeps_acquire (index : UInt64) :
    Step.Keeps (fun s : Host × Cache => s.2.Shelved pageSize shut) (acquire index) := by
  intro s h
  rcases acquire_cases s index with ⟨e, host, hrun⟩ | ⟨r, hr, hrun⟩ | ⟨host, file, hrun⟩
  · rw [hrun]
    exact h
  · rw [hrun]
    exact (h.modifyPage r.page fun p _ => Page.alike_retain p).touch hr _
  · rw [hrun]
    exact h.takeIn h.pageSize_eq rfl _

theorem keeps_releasePage (id : PageId) :
    Step.Keeps (fun s : Host × Cache => s.2.Shelved pageSize shut) (releasePage id) :=
  Step.keeps_modify fun s h => h.release s.1.now id

theorem keeps_delete (index : UInt64) :
    Step.Keeps (fun s : Host × Cache => s.2.Shelved pageSize shut) (delete index) := by
  intro s h
  rw [run_delete]
  split <;> exact h.uncache index

theorem keeps_close : Step.Keeps (fun s : Host × Cache => s.2.Shelved pageSize shut) close := by
  intro s h
  rw [run_close]
  split
  · exact h
  · exact h.shutDown

theorem keeps_deed (d : Deed) :
    Step.Keeps (fun s : Host × Cache => s.2.Shelved pageSize shut) d.perform := by
  cases d with
  | acquire index => exact (keeps_acquire index).bind fun _ => Step.keeps_pure _
  | borrow index =>
      refine (keeps_acquire index).bind fun id => ?_
      exact (keeps_releasePage id).bind fun _ => Step.keeps_pure _
  | release id => exact (keeps_releasePage id).bind fun _ => Step.keeps_pure _
  | flush => exact Step.Keeps.bind (fun s h => h.flushed s.1.disk) fun _ => Step.keeps_pure _
  | evictIdle => exact Step.Keeps.bind (Step.keeps_modify fun s h => h.evictIdle s.1.now) fun _ => Step.keeps_pure _
  | delete index => exact (keeps_delete index).bind fun _ => Step.keeps_pure _
  | deleteBefore index => exact (keeps_deleteWhere keeps_delete _).bind fun _ => Step.keeps_pure _
  | deleteAll => exact (keeps_deleteWhere keeps_delete _).bind fun _ => Step.keeps_pure _
  | releaseAll => exact Step.Keeps.bind (fun _ h => h.emptied) fun _ => Step.keeps_pure _
  | close => exact keeps_close.bind fun _ => Step.keeps_pure _
  | others change => exact Step.Keeps.bind (Step.keeps_modify fun _ h => h) fun _ => Step.keeps_pure _

end Keeps

-- What is done with a page is done to it in its place.
theorem run_onPage_of_page? (hp : s.2.page? id = some p) (access : Page.Access α) :
    (onPage id access).run s =
      match access p s.1.disk with
      | .error e => (.error e, s)
      | .ok (a, page, disk) => (.ok a, ({ s.1 with disk }, s.2.modifyPage id fun _ => page)) := by
  unfold onPage
  rw [Step.run_bind_of_run (Step.run_get s)]
  simp only [hp]
  rw [Step.run_bind, Step.run_ofExcept]
  cases access p s.1.disk <;> rfl

theorem run_onPage_of_none (hp : s.2.page? id = none) (access : Page.Access α) :
    (onPage id access).run s = (.error (.internal "no such page"), s) := by
  unfold onPage
  rw [Step.run_bind_of_run (Step.run_get s)]
  simp only [hp]
  rfl

theorem run_settlePage (id : PageId) (settle : Page → Disk → Except Error Unit × Page) (s : Host × Cache) :
    ((settlePage id settle).run s).2 =
      (s.1, match s.2.page? id with
        | none => s.2
        | some p => s.2.modifyPage id fun _ => (settle p s.1.disk).2) := by
  unfold settlePage
  rw [Step.run_bind_of_run (Step.run_get s)]
  dsimp only
  cases s.2.page? id with
  | none => rfl
  | some p => rfl

-- A call does not close the page.
theorem alike_next (c : Page.Call) (s : Page.Desk) : s.page.Alike ((Page.Act.call c).next s).page := by
  cases c <;> exact ⟨rfl, rfl, rfl, rfl⟩

theorem Shelved.call (h : s.2.Shelved pageSize shut) (id : PageId) (c : Page.Call) :
    ((onPage id c.access).run s).2.2.Shelved pageSize shut := by
  cases hp : s.2.page? id with
  | none =>
      rw [run_onPage_of_none hp]
      exact h
  | some p =>
      let desk : Page.Desk := ⟨p, s.1.disk, []⟩
      have haccess := Page.access_eq c desk
      rw [run_onPage_of_page? hp, haccess]
      cases desk.face.accept c with
      | error e => exact h
      | ok u =>
          refine h.modifyPage id fun q hq => ?_
          cases hp.symm.trans hq
          exact alike_next c desk

theorem Shelved.settle (h : s.2.Shelved pageSize shut) (id : PageId) (x : Page.Settling) :
    ((settlePage id x.settle).run s).2.2.Shelved pageSize (shut ++ ((Use.settle id x).closes? s).toList) := by
  have hkept : s.2.Shelved pageSize (shut ++ []) := (List.append_nil shut).symm ▸ h
  rw [run_settlePage]
  dsimp only
  cases hp : s.2.page? id with
  | none => cases x <;> simpa [Use.closes?, hp] using h
  | some p =>
      cases x with
      | flush =>
          refine hkept.modifyPage id fun q hq => ?_
          cases hp.symm.trans hq
          exact Page.alike_flush p s.1.disk
      | close =>
          have hcloses : (Use.settle id .close).closes? s = if p.holders = 0 then some id else none := by
            rw [Use.closes?, hp]
            rfl
          rw [hcloses]
          show (s.2.modifyPage id fun _ => (p.close s.1.disk).2).Shelved _ _
          unfold Page.close
          by_cases hheld : p.holders = 0
          · rw [if_neg (not_not_intro hheld), if_pos hheld]
            exact h.unmap hp rfl
          · rw [if_pos hheld, if_neg hheld]
            refine hkept.modifyPage id fun q hq => ?_
            cases hp.symm.trans hq
            exact .refl p

theorem Shelved.use (h : s.2.Shelved pageSize shut) (u : Use) :
    (u.perform.run s).2.2.Shelved pageSize (shut ++ (u.closes? s).toList) := by
  have hkept : s.2.Shelved pageSize (shut ++ []) := (List.append_nil shut).symm ▸ h
  cases u with
  | event e =>
      have hact : Step.Keeps (fun s : Host × Cache => s.2.Shelved pageSize (shut ++ [])) e.act :=
        Step.Keeps.bind (Step.keeps_modify fun _ h => h) fun _ => keeps_deed e.deed
      exact hact.discard s hkept
  | sweep now => exact hkept.sweep now
  | call id c =>
      unfold Use.perform
      rw [Step.snd_run_discard]
      exact hkept.call id c
  | settle id x => exact h.settle id x
  | readInto id position buffer =>
      unfold Use.perform
      rw [Step.snd_run_discard]
      cases hp : s.2.page? id with
      | none =>
          rw [run_onPage_of_none hp]
          exact hkept
      | some p =>
          rw [run_onPage_of_page? hp]
          refine hkept.modifyPage id fun q hq => ?_
          cases hp.symm.trans hq
          exact .refl p
  | others change => exact hkept

theorem Shelved.after (h : s.2.Shelved pageSize shut) (us : List Use) :
    (Step.after (us.map Use.perform) s).2.Shelved pageSize (shut ++ closings us s) := by
  induction us generalizing shut s with
  | nil => exact (List.append_nil shut).symm ▸ h
  | cons u us ih =>
      rw [closings, ← List.append_assoc]
      exact ih (h.use u)

theorem shelved_open {dir : Path} {policy : CachePolicy} {host host' : Host}
    (hopen : (Cache.open dir pageSize policy).run host = (.ok c, host')) : c.Shelved pageSize [] := by
  unfold Cache.open at hopen
  obtain ⟨_, _, -, hopen⟩ := Step.run_bind_eq_ok_iff.mp hopen
  obtain ⟨_, _, -, hopen⟩ := Step.run_bind_eq_ok_iff.mp hopen
  obtain ⟨_, _, -, hopen⟩ := Step.run_bind_eq_ok_iff.mp hopen
  cases hopen
  exact .of_empty rfl rfl nofun

-- A stretch of a page that was handed out is refused only if the page is closed, or if there is no buffer
-- for it.
private theorem run_read (hp : t.2.page? id = some p) (hindex : p.index = index)
    (hopen : p.isOpen = true ↔ id ∉ shut) {position length : Nat} (hwithin : position + length ≤ p.size) :
    ((onPage id (Page.read position length)).run t).1 =
      if Page.maxBuffer < length then .error (.panicked "capacity overflow")
      else if id ∈ shut then .error (.pageClosed index)
      else .ok ((p.content t.1.disk).read position length) := by
  rw [run_onPage_of_page? hp, Page.read, Page.checkBuffer, Page.checkBounds_eq_ok_iff.mpr hwithin,
    Page.checkOpen]
  by_cases hlong : Page.maxBuffer < length
  · rw [if_neg (Nat.not_le_of_lt hlong), if_pos hlong]
    rfl
  rw [if_pos (Nat.le_of_not_lt hlong), if_neg hlong]
  by_cases hshut : id ∈ shut
  · have hclosed : ¬p.isOpen = true := fun h => hopen.mp h hshut
    rw [if_neg hclosed, if_pos hshut, hindex]
    rfl
  · rw [if_pos (hopen.mpr hshut), if_neg hshut]
    rfl

-- The page that is handed out is the one of its number, as before or new.
theorem of_acquire (hacquire : (acquire index).run s = (.ok id, t)) :
    (∃ lastUse, t.2.resident[index]? = some ⟨id, lastUse⟩) ∧
      ((∃ r, s.2.resident[index]? = some r ∧ r.page = id) ∨ id = s.2.pages.size) := by
  rcases acquire_cases s index with ⟨e, host, hrun⟩ | ⟨r, hr, hrun⟩ | ⟨host, file, hrun⟩
  · cases (Prod.mk.inj (hacquire.symm.trans hrun)).1
  · cases hacquire.symm.trans hrun
    exact ⟨⟨_, (getElem?_resident_touch ..).trans (if_pos rfl)⟩, .inl ⟨r, hr, rfl⟩⟩
  · cases hacquire.symm.trans hrun
    exact ⟨⟨_, (getElem?_resident_takeIn ..).trans (if_pos rfl)⟩, .inr rfl⟩

theorem Shelved.handed (h : s.2.Shelved pageSize shut) (hacquire : (acquire index).run s = (.ok id, t)) :
    ∃ p, t.2.page? id = some p ∧ p.index = index ∧ p.size = pageSize ∧ (p.isOpen = true ↔ id ∉ shut) := by
  have hnext := keeps_acquire index s h
  obtain ⟨⟨lastUse, hentry⟩, -⟩ := of_acquire hacquire
  rw [hacquire] at hnext
  exact hnext.resident hentry

theorem Shelved.tended (h : s.2.Shelved pageSize shut) : Tended pageSize shut s where
  handed hacquire := by
    obtain ⟨p, hp, hindex, hsize, hopen⟩ := h.handed hacquire
    refine ⟨p, hp, hindex, hsize, hopen, fun position length hwithin => ?_⟩
    exact run_read hp hindex hopen (hsize ▸ hwithin)
  resident hr := by
    obtain ⟨p, hp, -, -, hopen⟩ := h.resident hr
    exact ⟨p, hp, hopen⟩
  usable_iff := by
    constructor
    · intro husable index r hr
      have hacquire := acquire_of_resident hr
      obtain ⟨p, hp, -, -, hopen⟩ := h.handed hacquire
      obtain ⟨q, hq, hqopen, -⟩ := husable index _ _ hacquire
      cases hp.symm.trans hq
      exact hopen.mp hqopen
    · intro hopen index id t hacquire
      have hunshut : id ∉ shut := by
        rcases (of_acquire hacquire).2 with ⟨r, hr, rfl⟩ | rfl
        · exact hopen index r hr
        · exact fun hshut => Nat.lt_irrefl _ (h.issued _ hshut)
      obtain ⟨p, hp, hindex, -, hopen⟩ := h.handed hacquire
      refine ⟨p, hp, hopen.mpr hunshut, fun position length hwithin hlength => ?_⟩
      rw [run_read hp hindex hopen hwithin, if_neg (Nat.not_lt_of_le hlength), if_neg hunshut]
      exact ⟨_, rfl⟩

end

-- A page that nobody holds is closed, and the cache hands it out again as it is.
theorem not_usable_closed : ∃ host' c,
    (Cache.open ⟨"spool"⟩ 64 .pinned).run ⟨Disk.empty, 0⟩ = (.ok c, host') ∧
      ¬Usable (Step.after (List.map Use.perform
        [.event ⟨0, .acquire 0⟩, .event ⟨0, .release 0⟩, .settle 0 .close]) (host', c)) := by
  refine ⟨_, _, rfl, fun husable => ?_⟩
  obtain ⟨p, hp, hopen, -⟩ := husable 0 0 _ rfl
  cases hp
  cases hopen

theorem usable_law {dir : Path} {pageSize : Nat} {policy : CachePolicy} {host host' : Host} {c : Cache}
    (hopen : (Cache.open dir pageSize policy).run host = (.ok c, host')) (us : List Use) :
    Tended pageSize (closings us (host', c)) (Step.after (us.map Use.perform) (host', c)) :=
  (Shelved.after (s := (host', c)) (shelved_open hopen) us).tended

-- Two pages are handed out and given back, and one of them is closed.
theorem usable_law_closed : ∃ host' c,
    (Cache.open ⟨"spool"⟩ 64 .pinned).run ⟨Disk.empty, 0⟩ = (.ok c, host') ∧
    let us : List Use := [.event ⟨0, .borrow 0⟩, .event ⟨1, .borrow 1⟩, .settle 0 .close, .call 1 (.write 0 [7])]
    closings us (host', c) = [0] ∧ Tended 64 (closings us (host', c)) (Step.after (us.map Use.perform) (host', c)) := by
  have hopen : (Cache.open ⟨"spool"⟩ 64 .pinned).run ⟨Disk.empty, 0⟩ =
      (.ok ⟨⟨"spool"⟩, 64, .pinned, 0, 0, #[], ∅, false⟩, ⟨Disk.empty.addDirectory ["spool"], 0⟩) := rfl
  exact ⟨_, _, hopen, rfl, usable_law hopen _⟩

end Spool.Cache
