import Spool.Proofs.Log.Bearing
import Spool.Proofs.Log.Removal

namespace Spool.Log

-- What happens to a log or to the disk that it is on.
inductive Trial where
  | act (a : Act)
  | shift (change : Disk → Disk)

namespace Trial

def perform (dir : Path) : Trial → Action Unit
  | act a => a.perform dir
  | shift change => modify fun (host, l) => ({ host with disk := change host.disk }, l)

-- How many payloads are offered.
def appends : Trial → Nat
  | act (.request (.append _)) => 1
  | _ => 0

-- No removal fails, and no file of the log is touched by others.
def Allowed (dir : Path) (base : Location) (t : Trial) (s : Host × Log) : Prop :=
  match t with
  | act (.request .removeAll) => (Log.removeAll.run s).1 = .ok ()
  | act (.request (.removeBefore index)) => ((Log.removeBefore index).run s).1 = .ok ()
  | act _ => True
  | shift change => Shifts dir base s.1.disk (change s.1.disk)

-- Nothing is appended, and nothing is removed.
def Quiet (dir : Path) (base : Location) (t : Trial) (s : Host × Log) : Prop :=
  match t with
  | act (.request (.append payload)) => ∃ e, ((Log.append payload).run s).1 = .error e
  | act (.request .removeAll) => False
  | act (.request (.removeBefore _)) => False
  | act _ => True
  | shift change => Shifts dir base s.1.disk (change s.1.disk)

end Trial

-- A log, open or closed, on a disk that bears its books, after so many payloads were offered.
structure Stable (dir : Path) (base : Location) (s : Host × Log) (b : Books) (n : Nat) : Prop where
  bears : Bears dir base s.1.disk b
  sturdy : b.Sturdy n
  head : s.2.head = b.head
  tail : s.2.tail = b.tail
  dirs : ∀ f : Folder, (f.cache s.2).dir = dir.join f.name
  stage : Faces base s b ∨ s.2.Spent

-- What a trial leaves behind.
def Endures (dir : Path) (base : Location) (b : Books) (n : Nat) (x : Trial) (s t : Host × Log) : Prop :=
  ∃ b', Stable dir base t b' (n + x.appends) ∧ (x.Quiet dir base s → b.Same b')

-- The books may have changed, but the items are what they were.
def Steady (dir : Path) (base : Location) (b : Books) (n : Nat) (s : Host × Log) : Prop :=
  ∃ b', Stable dir base s b' n ∧ b.Same b'

section

variable {dir : Path} {base : Location} {s t : Host × Log} {b b' : Books} {n m : Nat} {index : UInt64}
  {payload : Bytes}

theorem Stable.steady (h : Stable dir base s b n) : Steady dir base b n s :=
  ⟨b, h, .refl b⟩

theorem Steady.trans (h : Steady dir base b' n s) (hsame : b.Same b') : Steady dir base b n s := by
  obtain ⟨b'', hstable, hsame'⟩ := h
  exact ⟨b'', hstable, hsame.trans hsame'⟩

-- An open log shows which books it has.
theorem Stable.faces (h : Stable dir base s b n) (hopen : s.2.ends.closed = false) : Faces base s b := by
  refine h.stage.resolve_right fun hspent => ?_
  cases hopen.symm.trans (hspent .ends).closed

theorem Stable.spent (h : Stable dir base s b n) (hclosed : s.2.ends.closed = true) : s.2.Spent := by
  refine h.stage.resolve_left fun hfaces => ?_
  cases hclosed.symm.trans (hfaces.copes .ends).notClosed

-- What an open log does shows in its books.
theorem Stable.of_moves (h : Stable dir base s b n) (hmoves : Moves base s t b') (hsturdy : b'.Sturdy m) :
    Stable dir base t b' m :=
  ⟨h.bears.of_moves hmoves, hsturdy, hmoves.faces.head, hmoves.faces.tail,
    fun f => (hmoves.dir f).trans (h.dirs f), .inl hmoves.faces⟩

-- A read may map or miss pages of the window, and nothing else comes of it.
theorem Stable.fetch (h : Stable dir base s b n) (hfaces : Faces base s b) (index : UInt64) :
    Step.Ends (Log.fetch index) s (b.heard (grant base s) index) (Steady dir base b n) := by
  obtain ⟨b', hfetch, htouched⟩ := hfaces.ends_fetch index
  have hsturdy : b'.Sturdy n := htouched.sturdy h.sturdy fun page hpage =>
    hpage.2 ▸ h.sturdy.pages (h.sturdy.dataPage hpage.1)
  exact hfetch.mono fun t ht => ⟨b', h.of_moves ht.toMoves hsturdy, htouched.like.same⟩

theorem Stable.timestampOf (h : Stable dir base s b n) (hfaces : Faces base s b) (index : UInt64) :
    Step.Ends (Log.timestampOf index) s (b.dated (grant base s) index) (Steady dir base b n) := by
  obtain ⟨b', htime, htouched⟩ := hfaces.ends_timestampOf index
  have hsturdy : b'.Sturdy n := htouched.sturdy h.sturdy fun _ => False.elim
  exact htime.mono fun t ht => ⟨b', h.of_moves ht.toMoves hsturdy, htouched.like.same⟩

section Append

theorem Stable.append_clear (h : Stable dir base s b n) (hn : n < UInt64.size)
    (hhead : b.head.toNat + 1 < UInt64.size) (hclear : Clear base payload s) :
    Step.Ends (Log.append payload) s (.ok b.head) fun t =>
      Stable dir base t (b.append payload) (n + 1) ∧ Goes base s t (b.append payload) := by
  have hfaces := h.faces hclear.isOpen
  have hfits : payload.length ≤ b.dataPageSize := hfaces.dataPageSize ▸ hclear.fits
  exact (hfaces.append_clear hclear).mono fun t ht =>
    ⟨h.of_moves ht.toMoves (h.sturdy.append hhead hn hfits), ht⟩

-- What comes of an append that does not go through. The same is granted afterwards, to the log and to one that
-- is opened in its place.
structure Halts (dir : Path) (base : Location) (b : Books) (n : Nat) (s t : Host × Log) : Prop where
  steady : Steady dir base b (n + 1) t
  dataPageSize : t.2.dataPageSize = s.2.dataPageSize
  closed : t.2.ends.closed = s.2.ends.closed
  refuses : t.1.disk.refuses = s.1.disk.refuses
  grant : Log.grant base t = Log.grant base s
  regrant : ∀ dataPageSize, Log.regrant dir base dataPageSize t.1.disk = Log.regrant dir base dataPageSize s.1.disk

theorem Stable.append_error (h : Stable dir base s b n) (hn : n < UInt64.size)
    (hnot : ¬Clear base payload s) :
    ∃ e, Step.Ends (Log.append payload) s (.error e) (Halts dir base b n s) := by
  rcases h.stage with hfaces | hspent
  · obtain ⟨e, b', hends, hstopped⟩ := hfaces.append_stopped hnot
    obtain ⟨hsturdy, hsame⟩ := h.sturdy.stopped hn hstopped
    refine ⟨e, hends.mono fun t ht => ⟨⟨b', h.of_moves ht.toMoves hsturdy, hsame⟩, ?_, ?_, ht.frame.refuses, ?_,
      fun size => ?_⟩⟩
    · rw [ht.faces.dataPageSize, hstopped.dataPageSize, hfaces.dataPageSize]
    · exact (ht.faces.copes .ends).notClosed.trans (hfaces.copes .ends).notClosed.symm
    · exact funext fun f => funext fun page => ht.grant f page
    · refine funext fun f => funext fun page => ?_
      have hregrant := ht.regrant f page (f.pageSize size)
      rw [h.dirs f] at hregrant
      exact hregrant
  · obtain ⟨e, cursor, hends⟩ := hspent.append payload
    refine ⟨e, hends.mono ?_⟩
    rintro _ rfl
    have hdirs := Folder.forall_of (P := fun f => (f.cache { s.2 with cursor }).dir = dir.join f.name)
      (h.dirs .index) (h.dirs .data) (h.dirs .ends)
    have hspent' : Spent { s.2 with cursor } := Folder.forall_of (hspent .index) (hspent .data) (hspent .ends)
    have hgrant := Folder.forall_of (P := fun f => grant base (s.1, { s.2 with cursor }) f = grant base s f)
      rfl rfl rfl
    exact ⟨⟨b, ⟨h.bears, h.sturdy.mono (Nat.le_succ n), h.head, h.tail, hdirs, .inr hspent'⟩, .refl b⟩,
      rfl, rfl, rfl, funext hgrant, fun _ => rfl⟩

-- An append fails if and only if something is in its way.
theorem Stable.append_error_iff (h : Stable dir base s b n) (hn : n < UInt64.size) (payload : Bytes) :
    (∃ e, ((Log.append payload).run s).1 = .error e) ↔ ¬Clear base payload s := by
  constructor
  · rintro ⟨e, he⟩ hclear
    cases ((h.faces hclear.isOpen).append_clear hclear).1.symm.trans he
  · intro hnot
    obtain ⟨e, hends⟩ := h.append_error hn hnot
    exact ⟨e, hends.1⟩

end Append

theorem Steady.endures {x : Trial} (h : Steady dir base b (n + x.appends) t) : Endures dir base b n x s t := by
  obtain ⟨b', hstable, hsame⟩ := h
  exact ⟨b', hstable, fun _ => hsame⟩

section Request

theorem run_request_append (payload : Bytes) (s : Host × Log) :
    ((discard (Request.append payload).perform).run s).2 = ((Log.append payload).run s).2 := by
  have hends : Step.Ends (Log.append payload) s _ (· = ((Log.append payload).run s).2) := ⟨rfl, rfl⟩
  exact (hends.map Reply.index).discard.2

private theorem Stable.request_append (h : Stable dir base s b n) (hn : n + 1 < UInt64.size)
    (payload : Bytes) :
    Endures dir base b n (.act (.request (.append payload))) s ((Log.append payload).run s).2 := by
  have hshort : n < UInt64.size := Nat.lt_of_succ_lt hn
  by_cases hclear : Clear base payload s
  · have hhead : b.head.toNat + 1 < UInt64.size := Nat.lt_of_le_of_lt (Nat.succ_le_succ h.sturdy.head_le) hn
    obtain ⟨hresult, hstable, -⟩ := h.append_clear hshort hhead hclear
    refine ⟨_, hstable, fun hquiet => ?_⟩
    obtain ⟨e, he⟩ := hquiet
    cases hresult.symm.trans he
  · obtain ⟨e, -, hhalts⟩ := h.append_error hshort hclear
    exact hhalts.steady.endures

private theorem Stable.request_open (h : Stable dir base s b n) (hfaces : Faces base s b) (r : Request)
    (hallowed : Trial.Allowed dir base (.act (.request r)) s)
    (hn : n + Trial.appends (.act (.request r)) < UInt64.size) :
    Endures dir base b n (.act (.request r)) s ((discard r.perform).run s).2 := by
  have hsame : ∀ t, t = s → Steady dir base b n t := fun _ ht => ht ▸ h.steady
  cases r with
  | append payload => exact run_request_append payload s ▸ h.request_append hn payload
  | fetch index => exact (((h.fetch hfaces index).map Reply.payload).discard.2).endures
  | timestampOf index => exact (((h.timestampOf hfaces index).map Reply.time).discard.2).endures
  | removeAll =>
      have hremove : Step.Ends Log.removeAll s (.ok ()) fun t => Moves base s t b.removeAll :=
        ⟨hallowed, hfaces.removeAll_of_ok h.bears.paged (Prod.ext hallowed rfl)⟩
      exact ⟨_, h.of_moves (hremove.map fun _ => Reply.done).discard.2 h.sturdy.removeAll,
        fun hquiet => hquiet.elim⟩
  | removeBefore index =>
      obtain ⟨hin, hmoves⟩ := hfaces.removeBefore_of_ok h.bears.paged (Prod.ext hallowed rfl)
      have hremove : Step.Ends (Log.removeBefore index) s (.ok ()) fun t => Moves base s t (b.removeBefore index) :=
        ⟨hallowed, hmoves⟩
      exact ⟨_, h.of_moves (hremove.map fun _ => Reply.done).discard.2 (h.sturdy.removeBefore hin),
        fun hquiet => hquiet.elim⟩
  | dataPages => exact ((((ends_look _ s).mono hsame).map Reply.pages).discard.2).endures
  | diskUsage => exact ((((ends_look _ s).mono hsame).map Reply.bytes).discard.2).endures
  | flush =>
      obtain ⟨r, hflush, -⟩ := hfaces.flush
      exact ⟨b, h.of_moves (hflush.map fun _ => Reply.done).discard.2.toMoves h.sturdy, fun _ => .refl b⟩

private theorem Stable.request_closed (h : Stable dir base s b n) (hspent : s.2.Spent) (r : Request)
    (hallowed : Trial.Allowed dir base (.act (.request r)) s)
    (hn : n + Trial.appends (.act (.request r)) < UInt64.size) :
    Endures dir base b n (.act (.request r)) s ((discard r.perform).run s).2 := by
  have hsame : ∀ t, t = s → Steady dir base b n t := fun _ ht => ht ▸ h.steady
  cases r with
  | append payload => exact run_request_append payload s ▸ h.request_append hn payload
  | fetch index => exact ((((hspent.fetch index).mono hsame).map Reply.payload).discard.2).endures
  | timestampOf index => exact ((((hspent.timestampOf index).mono hsame).map Reply.time).discard.2).endures
  | removeAll =>
      obtain ⟨e, he⟩ := hspent.removeAll
      cases he.symm.trans hallowed
  | removeBefore index => cases (hspent.removeBefore index).1.symm.trans hallowed
  | dataPages => exact ((((ends_look _ s).mono hsame).map Reply.pages).discard.2).endures
  | diskUsage => exact ((((ends_look _ s).mono hsame).map Reply.bytes).discard.2).endures
  | flush =>
      have hflush : Step.Ends Log.flush s (.ok ()) (Steady dir base b n) := by
        unfold Step.Ends
        rw [hspent.flush]
        exact ⟨rfl, h.steady⟩
      exact ((hflush.map fun _ => Reply.done).discard.2).endures

end Request

section Act

theorem Stable.pass (h : Stable dir base s b n) (nanos : Nat) :
    Steady dir base b n ((passTime nanos).run s).2 := by
  show Steady dir base b n ({ s.1 with now := s.1.now + nanos }, s.2.sweep (s.1.now + nanos))
  rcases h.stage with hfaces | hspent
  · refine ⟨_, h.of_moves (hfaces.sweep _) (h.sturdy.setNow _), ?_⟩
    exact ⟨⟨fun hin => hin, fun _ => rfl, fun _ => rfl⟩, rfl, rfl⟩
  · rw [hspent.sweep_eq]
    exact ⟨b, ⟨h.bears, h.sturdy, h.head, h.tail, h.dirs, .inr hspent⟩, .refl b⟩

theorem Stable.retired (h : Stable dir base s b n) : Stable dir base (s.1, s.2.retired) b n := by
  rcases h.stage with hfaces | hspent
  · refine ⟨h.bears, h.sturdy, h.head, h.tail, fun f => ?_, .inr hfaces.spent_retired⟩
    rw [Folder.cache_retired, Cache.dir_retired, h.dirs]
  · rw [hspent.retired_eq]
    exact h

section Open

variable {dataPageSize : Nat} {policy : CachePolicy} (hpos : 0 < dataPageSize) (hle : dataPageSize ≤ maxDataPageSize)

include hpos hle

-- Whatever state the log was left in, a log that is opened in its place has the same items.
theorem Stable.ends_open (h : Stable dir base s b n)
    (hpermit : permit dir base dataPageSize policy s.1.disk b = .ok ()) :
    ∃ l b', Step.Ends (Log.open dir dataPageSize policy) s.1 (.ok l) (fun host =>
        Stable dir base (host, l) b' n ∧ Faces base (host, l) b' ∧
          grant base (host, l) = regrant dir base dataPageSize s.1.disk) ∧
      b'.dataPageSize = dataPageSize ∧ b.Same b' := by
  obtain ⟨l, b', hopen, hresumed⟩ := h.bears.ends_open hpos hle h.sturdy.headWord h.sturdy.tailWord hpermit
  refine ⟨l, b', hopen.mono ?_, ?_, h.sturdy.same_resumed hresumed⟩
  · rintro host ⟨hfaces, hbears, hdirs, hgrant⟩
    exact ⟨⟨hbears, h.sturdy.resumed hpos hle hresumed, hfaces.head, hfaces.tail, hdirs, .inl hfaces⟩, hfaces,
      hgrant⟩
  · exact hresumed.like.dataPageSize.trans (b.dataPageSize_refound _ _)

-- Nor does a log lose anything that cannot be opened.
theorem Stable.reopen_error (h : Stable dir base s b n) {e : Error}
    (hpermit : permit dir base dataPageSize policy s.1.disk b = .error e) :
    Steady dir base b n ((Log.reopen dir dataPageSize policy).run s).2 := by
  obtain ⟨b', hopen, htouched⟩ := h.bears.ends_open_error hpos hle h.sturdy.headWord h.sturdy.tailWord hpermit
  obtain ⟨t, hrun, hbears, hlog⟩ := (ends_reopen_error hopen).run_eq
  have hlike := htouched.like
  have hretired := h.retired
  rw [hrun]
  refine ⟨b', ⟨hbears, htouched.sturdy h.sturdy fun _ => False.elim, ?_, ?_, ?_, .inr ?_⟩, hlike.same⟩
  · rw [hlog, hlike.head]
    exact hretired.head
  · rw [hlog, hlike.tail]
    exact hretired.tail
  · rw [hlog]
    exact hretired.dirs
  · rw [hlog]
    rcases h.stage with hfaces | hspent
    · exact hfaces.spent_retired
    · exact hspent.retired_eq.symm ▸ hspent

end Open

theorem Stable.reopen (h : Stable dir base s b n) (dataPageSize : Nat) (policy : CachePolicy) :
    Steady dir base b n ((Log.reopen dir dataPageSize policy).run s).2 := by
  by_cases hvalid : 0 < dataPageSize ∧ dataPageSize ≤ maxDataPageSize
  · obtain ⟨hpos, hle⟩ := hvalid
    cases hpermit : permit dir base dataPageSize policy s.1.disk b with
    | error e => exact h.reopen_error hpos hle hpermit
    | ok _ =>
        obtain ⟨l, b', hopen, -, hsame⟩ := h.ends_open hpos hle hpermit
        have hends : Step.Ends (Log.reopen dir dataPageSize policy) s (.ok ()) (Steady dir base b n) :=
          ends_reopen (hopen.mono fun _ ht => ⟨b', ht.1, hsame⟩)
        exact hends.2
  · rw [run_reopen_of_invalid hvalid policy]
    exact h.retired.steady

theorem Stable.shift (h : Stable dir base s b n) {d : Disk} (hshifts : Shifts dir base s.1.disk d) :
    Stable dir base (⟨d, s.1.now⟩, s.2) b n where
  bears := h.bears.shift hshifts
  sturdy := h.sturdy
  head := h.head
  tail := h.tail
  dirs := h.dirs
  stage := h.stage.imp (fun hfaces => hfaces.shift h.bears h.dirs hshifts) id

end Act

-- A log that is opened on an empty directory.
theorem stable_open {host : Host} {dataPageSize : Nat} (h : host.disk.Vacant dir base)
    (hpos : 0 < dataPageSize) (hle : dataPageSize ≤ maxDataPageSize) (policy : CachePolicy) :
    ∃ l b, Step.Ends (Log.open dir dataPageSize policy) host (.ok l) (fun host' =>
        Stable dir base (host', l) b 0 ∧ Shows dir base (host', l) b) ∧
      b.dataPageSize = dataPageSize ∧ b.cursor = ⟨0, 0⟩ := by
  obtain ⟨l, b, hopen, hresumed⟩ := Log.ends_open h.site hpos hle policy
  have hwords : ∀ position, (host.disk.image (endsDir :: base)).word endsPage position = 0 :=
    Image.word_of_none (h.image_eq_none endsDir endsPage)
  have hfound : (Books.found dataPageSize base host).head = (Books.found dataPageSize base host).tail :=
    (hwords _).trans (hwords _).symm
  have hpage : ((Books.found dataPageSize base host).ends endsPage).isSome :=
    Image.isSome_touch_self (host.disk.image (endsDir :: base)) endsPageSize endsPage
  have hb := hresumed.eq_of_empty hfound (h.image_eq_none dataDir)
  have hsturdy : b.Sturdy 0 := by
    rw [hb]
    exact Books.sturdy_of_nothing hpos hle (hwords _) (hwords _) ((Image.word_touch _ _ _ _ _).trans (hwords _))
      ((Image.word_touch _ _ _ _ _).trans (hwords _)) hpage (h.image_eq_none dataDir) rfl
  refine ⟨l, b, hopen.mono ?_, hresumed.like.dataPageSize, by rw [hb]⟩
  rintro host' ⟨hshows, -, hdirs⟩
  refine ⟨?_, hshows⟩
  exact ⟨⟨hshows.site.ground, fun f => (hshows.serves f).sound.houses.directory, hshows.paged, hshows.faces.image⟩,
    hsturdy, hshows.head, hshows.tail, hdirs, .inl hshows.faces⟩

theorem Stable.trial (h : Stable dir base s b n) (x : Trial) (hallowed : x.Allowed dir base s)
    (hn : n + x.appends < UInt64.size) : Endures dir base b n x s ((x.perform dir).run s).2 := by
  cases x with
  | act a =>
      cases a with
      | request r =>
          rcases h.stage with hfaces | hspent
          · exact h.request_open hfaces r hallowed hn
          · exact h.request_closed hspent r hallowed hn
      | pass nanos => exact (h.pass nanos).endures
      | close =>
          have hclose : Steady dir base b n (Log.close.run s).2 := snd_run_close s ▸ h.retired.steady
          exact hclose.endures
      | reopen dataPageSize policy => exact (h.reopen dataPageSize policy).endures
  | shift change => exact (h.shift hallowed).steady.endures

theorem Trial.Quiet.allowed {x : Trial} (h : x.Quiet dir base s) : x.Allowed dir base s := by
  cases x with
  | act a =>
      cases a with
      | request r => cases r <;> trivial
      | _ => trivial
  | shift change => exact h

-- The run lemma: what every trial preserves, a run of trials does.
theorem Stable.after (h : Stable dir base s b n) (xs : List Trial)
    (hallowed : Step.Along (Trial.perform dir) (Trial.Allowed dir base) xs s)
    (hn : n + Step.total Trial.appends xs < UInt64.size) :
    ∃ b', Stable dir base (Step.after (xs.map (Trial.perform dir)) s) b' (n + Step.total Trial.appends xs) := by
  induction xs generalizing s b n with
  | nil => exact ⟨b, h⟩
  | cons x xs ih =>
      simp only [List.map_cons, Step.total, ← Nat.add_assoc] at hn ⊢
      obtain ⟨b', hstable, -⟩ := h.trial x hallowed.1 (by omega)
      exact ih hstable hallowed.2 hn

-- A run that appends nothing and removes nothing leaves every item as it was.
theorem Stable.after_quiet (h : Stable dir base s b n) (xs : List Trial)
    (hquiet : Step.Along (Trial.perform dir) (Trial.Quiet dir base) xs s)
    (hn : n + Step.total Trial.appends xs < UInt64.size) :
    Steady dir base b (n + Step.total Trial.appends xs) (Step.after (xs.map (Trial.perform dir)) s) := by
  induction xs generalizing s b n with
  | nil => exact h.steady
  | cons x xs ih =>
      simp only [List.map_cons, Step.total, ← Nat.add_assoc] at hn ⊢
      obtain ⟨b', hstable, hsame⟩ := h.trial x hquiet.1.allowed (by omega)
      exact (ih hstable hquiet.2 hn).trans (hsame hquiet.1)

end

end Spool.Log
