import Spool.Proofs.Log.Enduring

namespace Spool.Log

-- What a log that is opened on a directory for that comes to.
def reread (dir : Path) (dataPageSize : Nat) (policy : CachePolicy) (x : Action α) (host : Host) :
    Except Error α :=
  let openAndRun : Step Host α := do
    let l ← Log.open dir dataPageSize policy
    let (a, _) ← Step.beside l x
    return a
  (openAndRun.run host).1

-- The head and the tail.
def bounds : Action (UInt64 × UInt64) := do
  let (_, l) ← get
  return (l.head, l.tail)

-- The same host, but for a system that refuses nothing any more.
def obliging (host : Host) : Host :=
  { host with disk := host.disk.refusing fun _ _ => false }

-- A log that is opened on either host comes to the same, as things stand and as soon as nothing is refused.
def Rereads (dir : Path) (x : Action α) (host host' : Host) : Prop :=
  ∀ dataPageSize policy,
    reread dir dataPageSize policy x host' = reread dir dataPageSize policy x host ∧
      reread dir dataPageSize policy x (obliging host') = reread dir dataPageSize policy x (obliging host)

-- After a failed append all is as before, at once and for a log that is opened again.
structure Undone (dir : Path) (s t : Host × Log) : Prop where
  head : t.2.head = s.2.head
  tail : t.2.tail = s.2.tail
  fetch : ∀ index, ((Log.fetch index).run t).1 = ((Log.fetch index).run s).1
  timestampOf : ∀ index, ((Log.timestampOf index).run t).1 = ((Log.timestampOf index).run s).1
  rebounds : Rereads dir bounds s.1 t.1
  refetch : ∀ index, Rereads dir (Log.fetch index) s.1 t.1
  retime : ∀ index, Rereads dir (Log.timestampOf index) s.1 t.1
  -- A log that is opened again has the window that this one has, and it can be opened unless that is refused.
  bounds : ∀ dataPageSize policy window,
    reread dir dataPageSize policy Log.bounds t.1 = .ok window → window = (s.2.head, s.2.tail)
  reopens : ∀ dataPageSize policy, 0 < dataPageSize → dataPageSize ≤ maxDataPageSize →
    reread dir dataPageSize policy Log.bounds (obliging t.1) = .ok (s.2.head, s.2.tail)
  -- With the page size of an open log it reads what that read before, as soon as nothing is refused.
  refetch_open : s.2.ends.closed = false → ∀ policy index,
    reread dir s.2.dataPageSize policy (Log.fetch index) (obliging t.1) =
      ((Log.fetch index).run (obliging s.1, s.2)).1
  retime_open : s.2.ends.closed = false → ∀ policy index,
    reread dir s.2.dataPageSize policy (Log.timestampOf index) (obliging t.1) =
      ((Log.timestampOf index).run (obliging s.1, s.2)).1

-- An append later on gets the index that a failed one would have had, and all items from before are intact.
structure Resumes (dir : Path) (s u : Host × Log) (payload : Bytes) : Prop where
  result : ((Log.append payload).run u).1 = .ok s.2.head
  fetch_head : ((Log.fetch s.2.head).run ((Log.append payload).run u).2).1 = .ok payload
  fetch : ∀ index, s.2.contains index = true →
    ((Log.fetch index).run ((Log.append payload).run u).2).1 = ((Log.fetch index).run u).1
  timestampOf : ∀ index, s.2.contains index = true →
    ((Log.timestampOf index).run ((Log.append payload).run u).2).1 = ((Log.timestampOf index).run u).1
  -- What was there before the failed append is read, as soon as nothing is refused.
  refetch : ∀ index, s.2.contains index = true → ∀ policy,
    ((Log.fetch index).run (obliging ((Log.append payload).run u).2.1, ((Log.append payload).run u).2.2)).1 =
      reread dir u.2.dataPageSize policy (Log.fetch index) (obliging s.1)
  retime : ∀ index, s.2.contains index = true → ∀ policy,
    ((Log.timestampOf index).run (obliging ((Log.append payload).run u).2.1, ((Log.append payload).run u).2.2)).1 =
      reread dir u.2.dataPageSize policy (Log.timestampOf index) (obliging s.1)

-- What is true of an append after so many payloads were offered.
structure Harmless (dir : Path) (base : Location) (s : Host × Log) (n : Nat) (payload : Bytes) : Prop where
  fails_iff : (∃ e, ((Log.append payload).run s).1 = .error e) ↔ ¬Clear base payload s
  undone : ∀ e, ((Log.append payload).run s).1 = .error e → Undone dir s ((Log.append payload).run s).2
  resumes : ∀ e, ((Log.append payload).run s).1 = .error e → ∀ xs,
    Step.Along (Trial.perform dir) (Trial.Quiet dir base) xs ((Log.append payload).run s).2 →
    n + 1 + Step.total Trial.appends xs < UInt64.size → ∀ next,
    Clear base next (Step.after (xs.map (Trial.perform dir)) ((Log.append payload).run s).2) →
    Resumes dir s (Step.after (xs.map (Trial.perform dir)) ((Log.append payload).run s).2) next

section

variable {dir : Path} {base : Location} {s t : Host × Log} {b b' : Books} {n m : Nat} {dataPageSize : Nat}
  {policy : CachePolicy} {index : UInt64} {payload : Bytes}

-- The same system is asked for the same.
private theorem permit_congr {d d' : Disk} (hsame : b.Same b') (hrefuses : d'.refuses = d.refuses)
    (hregrant : regrant dir base dataPageSize d' = regrant dir base dataPageSize d) :
    permit dir base dataPageSize policy d' b' = permit dir base dataPageSize policy d b := by
  unfold permit startSweepers Cache.startSweeper Cache.askSweeper
  rw [hsame.head, hsame.tail, hrefuses, hregrant]

-- A page size that is refused is refused whatever is on the disk.
private theorem reread_of_invalid (hinvalid : ¬(0 < dataPageSize ∧ dataPageSize ≤ maxDataPageSize)) (x : Action α)
    (host : Host) : reread dir dataPageSize policy x host = .error (.invalidConfig
      ("data page size " ++ toString dataPageSize ++ " must be in 1..=u32::MAX")) := by
  unfold reread Log.open
  rw [if_pos (by omega)]
  rfl

private theorem rereads_of_valid {x : Action α} {host host' : Host}
    (h : ∀ dataPageSize policy, 0 < dataPageSize → dataPageSize ≤ maxDataPageSize →
      reread dir dataPageSize policy x host' = reread dir dataPageSize policy x host ∧
        reread dir dataPageSize policy x (obliging host') = reread dir dataPageSize policy x (obliging host)) :
    Rereads dir x host host' := by
  intro dataPageSize policy
  by_cases hvalid : 0 < dataPageSize ∧ dataPageSize ≤ maxDataPageSize
  · exact h dataPageSize policy hvalid.1 hvalid.2
  · simp only [reread_of_invalid hvalid, and_self]

section Reread

variable (h : Stable dir base s b n) (hpos : 0 < dataPageSize) (hle : dataPageSize ≤ maxDataPageSize)

include h hpos hle

-- If the log is opened, its items are the same; if not, that is told.
private theorem Stable.reread_eq {x : Action α} {r : Except Error α}
    (hx : ∀ t b', Stable dir base t b' n → Faces base t b' →
      grant base t = regrant dir base dataPageSize s.1.disk → b'.dataPageSize = dataPageSize → b.Same b' →
      (x.run t).1 = r) :
    reread dir dataPageSize policy x s.1 = (permit dir base dataPageSize policy s.1.disk b).bind fun _ => r := by
  cases hpermit : permit dir base dataPageSize policy s.1.disk b with
  | error e =>
      obtain ⟨b', hopen, -⟩ := h.bears.ends_open_error hpos hle h.sturdy.headWord h.sturdy.tailWord hpermit
      exact hopen.bind_error.1
  | ok _ =>
      obtain ⟨l, b', hopen, hsize, hsame⟩ := h.ends_open hpos hle hpermit
      obtain ⟨host, hrun, hstable, hfaces, hgrant⟩ := hopen.run_eq
      rw [reread, Step.run_bind_of_run hrun, Step.run_beside_fst, hx _ b' hstable hfaces hgrant hsize hsame]
      rfl

private theorem Stable.reread_fetch (index : UInt64) :
    reread dir dataPageSize policy (Log.fetch index) s.1 =
      (permit dir base dataPageSize policy s.1.disk b).bind fun _ =>
        (b.sized dataPageSize).heard (regrant dir base dataPageSize s.1.disk) index :=
  h.reread_eq hpos hle fun t b' hstable hfaces hgrant hsize hsame => by
    rw [(hstable.fetch hfaces index).1, hgrant, ← hsame.heard_eq, ← hsize]
    rfl

private theorem Stable.reread_timestampOf (index : UInt64) :
    reread dir dataPageSize policy (Log.timestampOf index) s.1 =
      (permit dir base dataPageSize policy s.1.disk b).bind fun _ =>
        b.dated (regrant dir base dataPageSize s.1.disk) index :=
  h.reread_eq hpos hle fun t b' hstable hfaces hgrant _ hsame => by
    rw [(hstable.timestampOf hfaces index).1, hgrant, hsame.dated_eq]

private theorem Stable.reread_bounds :
    reread dir dataPageSize policy bounds s.1 =
      (permit dir base dataPageSize policy s.1.disk b).bind fun _ => .ok (b.head, b.tail) :=
  h.reread_eq hpos hle fun t b' hstable _ _ _ hsame => by
    show Except.ok (t.2.head, t.2.tail) = _
    rw [hstable.head, hstable.tail, hsame.head, hsame.tail]

end Reread

section Obliging

variable (h : Stable dir base s b n)

include h

private theorem Stable.obliging : Stable dir base (obliging s.1, s.2) b n :=
  h.shift (h.bears.shifts_refusing _)

-- Where a page file is, nothing else is in the way.
private theorem Stable.regrant_obliging (f : Folder) (page : UInt64) (hpage : (b.image f page).isSome) :
    regrant dir base dataPageSize (Log.obliging s.1).disk f page = .ok () :=
  Disk.grant_of_calm (fun _ _ => rfl) (h.obliging.bears.not_barred hpage) _ _

private theorem Stable.grant_obliging (f : Folder) (page : UInt64) (hpage : (b.image f page).isSome) :
    grant base (Log.obliging s.1, s.2) f page = .ok () :=
  grant_of_free (fun _ _ => rfl) (h.obliging.bears.not_barred hpage)

private theorem Stable.permit_obliging : permit dir base dataPageSize policy (Log.obliging s.1).disk b = .ok () := by
  refine permit_eq_ok_iff.mpr ⟨?_, h.regrant_obliging .ends _ h.sturdy.endsPage, fun hdiff => ?_⟩
  · unfold startSweepers
    rw [Cache.startSweeper, Cache.askSweeper_of_calm (fun _ _ => rfl)]
    exact Cache.askSweeper_of_calm (fun _ _ => rfl) _ _ _ _
  · exact h.regrant_obliging .index _ (h.sturdy.indexPage (h.sturdy.contains_last hdiff))

section Reread

variable (hpos : 0 < dataPageSize) (hle : dataPageSize ≤ maxDataPageSize)

include hpos hle

private theorem Stable.refetch_obliging (index : UInt64) :
    reread dir dataPageSize policy (Log.fetch index) (Log.obliging s.1) =
      (b.sized dataPageSize).heard (fun _ _ => .ok ()) index := by
  rw [h.obliging.reread_fetch hpos hle, h.permit_obliging]
  exact h.sturdy.heard_eq h.regrant_obliging dataPageSize index

private theorem Stable.retime_obliging (index : UInt64) :
    reread dir dataPageSize policy (Log.timestampOf index) (Log.obliging s.1) = b.dated (fun _ _ => .ok ()) index := by
  rw [h.obliging.reread_timestampOf hpos hle, h.permit_obliging]
  exact h.sturdy.dated_eq h.regrant_obliging index

private theorem Stable.rebounds_obliging :
    reread dir dataPageSize policy bounds (Log.obliging s.1) = .ok (b.head, b.tail) := by
  rw [h.obliging.reread_bounds hpos hle, h.permit_obliging]
  rfl

end Reread

variable (hopen : s.2.ends.closed = false)

include hopen

private theorem Stable.run_fetch (index : UInt64) :
    ((Log.fetch index).run s).1 = (b.sized s.2.dataPageSize).heard (grant base s) index := by
  have hfaces := h.faces hopen
  rw [(h.fetch hfaces index).1, hfaces.dataPageSize]
  rfl

private theorem Stable.run_timestampOf (index : UInt64) :
    ((Log.timestampOf index).run s).1 = b.dated (grant base s) index :=
  (h.timestampOf (h.faces hopen) index).1

private theorem Stable.fetch_obliging (index : UInt64) :
    ((Log.fetch index).run (Log.obliging s.1, s.2)).1 =
      (b.sized s.2.dataPageSize).heard (fun _ _ => .ok ()) index := by
  rw [h.obliging.run_fetch hopen]
  exact h.sturdy.heard_eq h.grant_obliging s.2.dataPageSize index

private theorem Stable.timestampOf_obliging (index : UInt64) :
    ((Log.timestampOf index).run (Log.obliging s.1, s.2)).1 = b.dated (fun _ _ => .ok ()) index := by
  rw [h.obliging.run_timestampOf hopen]
  exact h.sturdy.dated_eq h.grant_obliging index

private theorem Stable.pageSize_valid : 0 < s.2.dataPageSize ∧ s.2.dataPageSize ≤ maxDataPageSize := by
  rw [(h.faces hopen).dataPageSize]
  exact ⟨h.sturdy.pageSize_pos, h.sturdy.pageSize_le⟩

end Obliging

section Once

variable (h : Stable dir base s b n)

include h

private theorem Stable.contains_eq (index : UInt64) : s.2.contains index = b.contains index := by
  unfold Log.contains Log.size Books.contains
  rw [h.head, h.tail]

private theorem Stable.refusal_eq (h' : Stable dir base t b' m) (hsame : b.Same b') (index : UInt64) :
    t.2.refusal index = s.2.refusal index := by
  refine refusal_congr ?_ ?_ ?_ index
  · rw [h'.head, h.head, hsame.head]
  · rw [h'.tail, h.tail, hsame.tail]
  · exact (h'.dirs .index).trans (h.dirs .index).symm

-- A closed log refuses as it did before, and an open one reads what it did.
theorem Stable.undone (hhalts : Halts dir base b n s t) : Undone dir s t := by
  obtain ⟨⟨b', h', hsame⟩, hsize, hclosed, hrefuses, hgrant, hregrant⟩ := hhalts
  refine ⟨?head, ?tail, fun index => ?fetch, fun index => ?timestampOf,
    rereads_of_valid fun size policy hpos hle => ?rebounds,
    fun index => rereads_of_valid fun size policy hpos hle => ?refetch,
    fun index => rereads_of_valid fun size policy hpos hle => ?retime,
    fun size policy window hwindow => ?bounds, fun size policy hpos hle => ?reopens,
    fun hopen policy index => ?refetch_open, fun hopen policy index => ?retime_open⟩
  case head => rw [h'.head, h.head, hsame.head]
  case tail => rw [h'.tail, h.tail, hsame.tail]
  case fetch =>
    cases hstage : s.2.ends.closed with
    | false =>
        rw [h.run_fetch hstage, h'.run_fetch (hclosed.trans hstage), hsize, hgrant, hsame.heard_eq]
    | true =>
        rw [((h.spent hstage).fetch index).1, ((h'.spent (hclosed.trans hstage)).fetch index).1,
          h.refusal_eq h' hsame]
  case timestampOf =>
    cases hstage : s.2.ends.closed with
    | false =>
        rw [h.run_timestampOf hstage, h'.run_timestampOf (hclosed.trans hstage), hgrant, hsame.dated_eq]
    | true =>
        rw [((h.spent hstage).timestampOf index).1, ((h'.spent (hclosed.trans hstage)).timestampOf index).1,
          h.refusal_eq h' hsame]
  case rebounds =>
    rw [h'.reread_bounds hpos hle, h.reread_bounds hpos hle, h'.rebounds_obliging hpos hle,
      h.rebounds_obliging hpos hle, permit_congr hsame hrefuses (hregrant size), hsame.head, hsame.tail]
    exact ⟨rfl, rfl⟩
  case refetch =>
    rw [h'.reread_fetch hpos hle, h.reread_fetch hpos hle, h'.refetch_obliging hpos hle,
      h.refetch_obliging hpos hle, permit_congr hsame hrefuses (hregrant size), hregrant, hsame.heard_eq,
      hsame.heard_eq]
    exact ⟨rfl, rfl⟩
  case retime =>
    rw [h'.reread_timestampOf hpos hle, h.reread_timestampOf hpos hle, h'.retime_obliging hpos hle,
      h.retime_obliging hpos hle, permit_congr hsame hrefuses (hregrant size), hregrant, hsame.dated_eq,
      hsame.dated_eq]
    exact ⟨rfl, rfl⟩
  case bounds =>
    by_cases hvalid : 0 < size ∧ size ≤ maxDataPageSize
    · rw [h'.reread_bounds hvalid.1 hvalid.2] at hwindow
      rw [h.head, h.tail, ← hsame.head, ← hsame.tail]
      cases hpermit : permit dir base size policy t.1.disk b' with
      | error e =>
          rw [hpermit] at hwindow
          cases hwindow
      | ok _ =>
          rw [hpermit] at hwindow
          exact (Except.ok.inj hwindow).symm
    · rw [reread_of_invalid hvalid] at hwindow
      cases hwindow
  case reopens => rw [h'.rebounds_obliging hpos hle, h.head, h.tail, hsame.head, hsame.tail]
  case refetch_open =>
    obtain ⟨hpos, hle⟩ := h.pageSize_valid hopen
    rw [h'.refetch_obliging hpos hle, h.fetch_obliging hopen, hsame.heard_eq]
  case retime_open =>
    obtain ⟨hpos, hle⟩ := h.pageSize_valid hopen
    rw [h'.retime_obliging hpos hle, h.timestampOf_obliging hopen, hsame.dated_eq]

end Once

-- The pages of a payload that was just appended are granted.
private theorem Books.heard_append_head {grant : Folder → UInt64 → Except Error Unit}
    (hfits : payload.length ≤ b.dataPageSize) (hle : b.dataPageSize ≤ maxDataPageSize)
    (hin : (b.append payload).contains b.head = true) (hindex : grant .index (Entry.pageOf b.head) = .ok ())
    (hdata : grant .data (b.placeFor payload.length).page = .ok ()) :
    (b.append payload).heard grant b.head = .ok payload := by
  have hpage : grant .data ((b.append payload).entry b.head).dataPage = .ok () := by
    rw [b.entry_append_head payload]
    exact hdata
  simp only [Books.heard, if_pos hin, hindex, hpage, Bind.bind, Except.bind]
  exact Books.fetch_append_head hfits hle

-- The next payload goes to the index that the window ends at, whatever an append has left behind.
theorem Stable.resumes (h : Stable dir base s b n) {u : Host × Log} (h' : Stable dir base u b' m)
    (hsame : b.Same b') (hn : n + 1 < UInt64.size) (hm : m < UInt64.size) (hclear : Clear base payload u) :
    Resumes dir s u payload := by
  have hfaces := h'.faces hclear.isOpen
  have hfits : payload.length ≤ b'.dataPageSize := hfaces.dataPageSize ▸ hclear.fits
  have hhead : b'.head.toNat + 1 < UInt64.size := by
    rw [hsame.head]
    exact Nat.lt_of_le_of_lt (Nat.succ_le_succ h.sturdy.head_le) hn
  have hretains := h'.sturdy.retains_append hhead hm hfits
  have hheads : s.2.head = b'.head := h.head.trans hsame.head.symm
  obtain ⟨hpos, hle⟩ := h'.pageSize_valid hclear.isOpen
  obtain ⟨v, hrun, hv, hgoes⟩ := (h'.append_clear hm hhead hclear).run_eq
  have hopen : v.2.ends.closed = false := (hgoes.faces.copes .ends).notClosed
  have hsize : v.2.dataPageSize = u.2.dataPageSize := hgoes.faces.dataPageSize.trans hfaces.dataPageSize.symm
  have hgrant : grant base v = grant base u := funext fun f => funext fun page => hgoes.grant f page
  have hwindow : ∀ {index}, s.2.contains index = true → b.contains index = true ∧ b'.contains index = true := by
    intro index hin
    rw [h.contains_eq] at hin
    exact ⟨hin, (hsame.contains_eq index).trans hin⟩
  refine ⟨?result, ?fetch_head, fun index hin => ?fetch, fun index hin => ?timestampOf,
    fun index hin policy => ?refetch, fun index hin policy => ?retime⟩
  case result => rw [hrun, hheads]
  case fetch_head =>
    have hin : (b'.append payload).contains b'.head = true :=
      (h'.sturdy.contains_append_iff hhead).mpr (.inr rfl)
    rw [hrun, hheads, (hv.fetch hgoes.faces _).1, hgrant]
    exact Books.heard_append_head hfits h'.sturdy.pageSize_le hin (hfaces.head ▸ hclear.index)
      (hfaces.roll_eq payload.length ▸ hclear.data)
  case fetch =>
    obtain ⟨-, hin'⟩ := hwindow hin
    rw [hrun, hv.run_fetch hopen, h'.run_fetch hclear.isOpen, hsize, hgrant, hretains.heard_eq hin']
  case timestampOf =>
    obtain ⟨-, hin'⟩ := hwindow hin
    rw [hrun, hv.run_timestampOf hopen, h'.run_timestampOf hclear.isOpen, hgrant, hretains.dated_eq hin']
  case refetch =>
    obtain ⟨hin, hin'⟩ := hwindow hin
    rw [hrun, hv.fetch_obliging hopen, hsize, hretains.heard_eq hin', hsame.heard_eq, h.refetch_obliging hpos hle]
  case retime =>
    obtain ⟨hin, hin'⟩ := hwindow hin
    rw [hrun, hv.timestampOf_obliging hopen, hretains.dated_eq hin', hsame.dated_eq, h.retime_obliging hpos hle]

theorem Stable.harmless (h : Stable dir base s b n) (hn : n < UInt64.size) (payload : Bytes) :
    Harmless dir base s n payload := by
  have hhalts : ∀ e, ((Log.append payload).run s).1 = .error e →
      Halts dir base b n s ((Log.append payload).run s).2 := by
    intro e he
    obtain ⟨_, -, hhalts⟩ := h.append_error hn ((h.append_error_iff hn payload).mp ⟨e, he⟩)
    exact hhalts
  refine ⟨h.append_error_iff hn payload, fun e he => h.undone (hhalts e he), ?_⟩
  intro e he xs hquiet hxs next hclear
  obtain ⟨b', hstable, hsame⟩ := (hhalts e he).steady
  obtain ⟨b'', hstable', hsame'⟩ := hstable.after_quiet xs hquiet hxs
  exact h.resumes hstable' (hsame.trans hsame') (by omega) hxs hclear

-- From an empty directory, after fewer appends than there are words, whatever else has happened.
theorem failing_law (host : Host) (h : host.disk.Vacant dir base) (hpos : 0 < dataPageSize)
    (hle : dataPageSize ≤ maxDataPageSize) (policy : CachePolicy) :
    ∃ host' l, (Log.open dir dataPageSize policy).run host = (.ok l, host') ∧
      ∀ xs, Step.Along (Trial.perform dir) (Trial.Allowed dir base) xs (host', l) →
        Step.total Trial.appends xs < UInt64.size → ∀ payload,
        Harmless dir base (Step.after (xs.map (Trial.perform dir)) (host', l))
          (Step.total Trial.appends xs) payload := by
  obtain ⟨l, b, hopen, -⟩ := stable_open h hpos hle policy
  obtain ⟨host', hrun, hstable, -⟩ := hopen.run_eq
  refine ⟨host', l, hrun, fun xs hallowed hxs payload => ?_⟩
  obtain ⟨b', hstable'⟩ := hstable.after xs hallowed (by omega)
  rw [Nat.zero_add] at hstable'
  exact hstable'.harmless hxs payload

-- Where only a directory could be in the way, and none is, a payload that is not too long goes through.
theorem Faces.clear_of_calm (h : Faces base s b) (hcalm : s.1.disk.Calm)
    (hfree : ∀ (f : Folder) page, ¬s.1.disk.Barred (f.name :: base) page)
    (hfits : payload.length ≤ b.dataPageSize) : Clear base payload s :=
  ⟨h.dataPageSize ▸ hfits, (h.copes .ends).notClosed, grant_of_free hcalm (hfree .data _),
    grant_of_free hcalm (hfree .index _), grant_of_free hcalm (hfree .ends _)⟩

end

-- An item is appended, and then no page can be mapped any more.
def trialsRefused : List Trial :=
  [.act (.request (.append [111, 110, 101])), .shift (·.refusing fun call _ => call = .mapFile)]

-- The second payload needs another page, which waits until the system is better again.
theorem failing_law_refused : ∃ host' l,
    (Log.open ⟨"spool"⟩ 4 .pinned).run ⟨Disk.empty.addDirectory ["spool"], 0⟩ = (.ok l, host') ∧
    let s := Step.after (trialsRefused.map (Trial.perform ⟨"spool"⟩)) (host', l)
    let t := ((Log.append [116, 119, 111]).run s).2
    let u := Step.after ([.shift (·.refusing fun _ _ => false)].map (Trial.perform ⟨"spool"⟩)) t
    (∃ e, ((Log.append [116, 119, 111]).run s).1 = .error e) ∧ Undone ⟨"spool"⟩ s t ∧
      Resumes ⟨"spool"⟩ s u [116, 119, 111] := by
  have hvacant : (Host.mk (Disk.empty.addDirectory ["spool"]) 0).disk.Vacant ⟨"spool"⟩ ["spool"] :=
    Disk.vacant_addDirectory (by decide)
  obtain ⟨host', l, hrun, hlaw⟩ := failing_law _ hvacant (by decide : 0 < 4) (by decide) .pinned
  obtain ⟨_, _, hopen, -⟩ := stable_open hvacant (by decide : 0 < 4) (by decide) .pinned
  obtain ⟨_, hrun', hstable, -⟩ := hopen.run_eq
  cases hrun.symm.trans hrun'
  have hsteps : (((Log.open ⟨"spool"⟩ 4 .pinned).run
      ⟨Disk.empty.addDirectory ["spool"], 0⟩).1.toOption.any fun l =>
        let s := Step.after (trialsRefused.map (Trial.perform ⟨"spool"⟩))
          (((Log.open ⟨"spool"⟩ 4 .pinned).run ⟨Disk.empty.addDirectory ["spool"], 0⟩).2, l)
        let t := ((Log.append [116, 119, 111]).run s).2
        let u := Step.after ([.shift (·.refusing fun _ _ => false)].map (Trial.perform ⟨"spool"⟩)) t
        ((Log.append [116, 119, 111]).run s).1.toOption = none ∧
          3 ≤ u.2.dataPageSize ∧ u.2.ends.closed = false ∧
          (grant ["spool"] u .data (u.2.roll 3).page).toOption = some () ∧
          (grant ["spool"] u .index (Entry.pageOf u.2.head)).toOption = some () ∧
          (grant ["spool"] u .ends endsPage).toOption = some ()) = true := by decide +kernel
  rw [hrun] at hsteps
  obtain ⟨hfails, hfits, hopened, hdata, hindex, hends⟩ := of_decide_eq_true hsteps
  obtain ⟨_, hone⟩ := hstable.after (trialsRefused.take 1) ⟨trivial, trivial⟩ (by decide)
  have hallowed : Step.Along (Trial.perform ⟨"spool"⟩) (Trial.Allowed ⟨"spool"⟩ ["spool"]) trialsRefused
      (host', l) := ⟨trivial, hone.bears.shifts_refusing _, trivial⟩
  obtain ⟨_, hstable'⟩ := hstable.after trialsRefused hallowed (by decide)
  have hharmless := hlaw trialsRefused hallowed (by decide) [116, 119, 111]
  refine ⟨host', l, hrun, ?_⟩
  generalize Step.after (trialsRefused.map (Trial.perform ⟨"spool"⟩)) (host', l) = s at *
  obtain ⟨_, htwo⟩ := hstable'.after [.act (.request (.append [116, 119, 111]))] ⟨trivial, trivial⟩ (by decide)
  have hrequest : Step.after ([.act (.request (.append [116, 119, 111]))].map (Trial.perform ⟨"spool"⟩)) s =
      ((Log.append [116, 119, 111]).run s).2 := run_request_append _ s
  rw [hrequest] at htwo
  obtain ⟨e, he⟩ : ∃ e, ((Log.append [116, 119, 111]).run s).1 = .error e := by
    cases hresult : ((Log.append [116, 119, 111]).run s).1 with
    | error e => exact ⟨e, rfl⟩
    | ok index =>
        rw [hresult] at hfails
        cases hfails
  -- And now it refuses nothing any more.
  have hquiet : Step.Along (Trial.perform ⟨"spool"⟩) (Trial.Quiet ⟨"spool"⟩ ["spool"])
      [.shift (·.refusing fun _ _ => false)] ((Log.append [116, 119, 111]).run s).2 :=
    ⟨htwo.bears.shifts_refusing _, trivial⟩
  have hresumes := hharmless.resumes e he _ hquiet (by decide) [116, 119, 111]
  exact ⟨⟨e, he⟩, hharmless.undone e he, hresumes ⟨hfits, hopened, Step.eq_ok_of_toOption hdata,
    Step.eq_ok_of_toOption hindex, Step.eq_ok_of_toOption hends⟩⟩

end Spool.Log
