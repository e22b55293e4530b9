import Spool.Proofs.Log.Obstructed
import Spool.Proofs.Queue.Stages

namespace Spool.Queue

-- What shows of an open queue whatever else is in the directories of its log.
structure Faces (base : Location) (s : Host × Store × Queue) (b : Log.Books) (front : UInt64) :
    Prop where
  log : Log.Faces base (s.1, s.2.1.log) b
  copes : s.2.2.front.Copes s.1.disk (frontDir :: base)
  pageSize : s.2.2.front.pageSize = frontPageSize
  word : (s.1.disk.image (frontDir :: base)).word frontPage frontPosition = front
  granted : s.2.2.front.grant s.1.disk (frontDir :: base) frontPage = .ok ()
  notClosed : s.2.2.closed = false

-- A queue that no fault is planned for, with what is read at each index, its head and its front.
structure Tells (base : Location) (s : Host × Store × Queue) (said : UInt64 → Except Error Bytes)
    (head front : UInt64) : Prop where
  faces : ∃ b, Faces base s b front ∧ b.head = head ∧
    ∀ index, b.heard (Log.grant base (s.1, s.2.1.log)) index = said index
  noFaults : s.2.1.faults = []

section

variable {dir : Path} {base : Location} {s t : Host × Store × Queue} {b : Log.Books}
  {said : UInt64 → Except Error Bytes} {head front index : UInt64} {r : Except Error α}
  {post : Host × Store × Queue → Prop}

theorem Shows.faces (h : Shows dir base s b front) : Faces base s b front := by
  obtain ⟨img, hserves, hword⟩ := h.front
  exact ⟨h.log.faces, hserves.sound.copes, hserves.pageSize, hserves.image.symm ▸ hword,
    hserves.sound.grant_eq_ok frontPage, h.notClosed⟩

theorem Faces.shows (h : Faces base s b front) (hsite : s.1.disk.Site dir base) :
    Shows dir base s b front := by
  have hsound := h.copes.sound hsite.wellFormed.calm (hsite.parts frontDir)
  exact ⟨h.log.shows hsite, ⟨_, ⟨hsound, h.pageSize, rfl⟩, h.word⟩, h.notClosed⟩

theorem Faces.tells (h : Faces base s b front) (hfaults : s.2.1.faults = []) :
    Tells base s (b.heard (Log.grant base (s.1, s.2.1.log))) b.head front :=
  ⟨⟨b, h, rfl, fun _ => rfl⟩, hfaults⟩

theorem Tells.head_eq (h : Tells base s said head front) : s.2.1.head = head := by
  obtain ⟨b, hfaces, hhead, -⟩ := h.faces
  exact hfaces.log.head.trans hhead

theorem Tells.expectOpen_bind (h : Tells base s said head front) {f : Unit → Action α}
    (hrest : Step.Ends (f ()) s r post) : Step.Ends (expectOpen >>= f) s r post := by
  obtain ⟨b, hfaces, -⟩ := h.faces
  have hopen : Step.Ends expectOpen s (.ok ()) (· = s) := by
    unfold expectOpen
    refine Step.ends_get_bind ?_
    rw [if_neg (by simp [hfaces.notClosed])]
    exact Step.ends_pure rfl
  refine hopen.bind ?_
  rintro _ rfl
  exact hrest

private theorem Tells.onFront {access : Page.Access α} {act : Sheet → Except Error (α × Sheet)}
    {front' : UInt64} (h : Tells base s said head front)
    (hacts : Page.Acts access frontPage frontPageSize act)
    (hword : ((s.1.disk.image (frontDir :: base)).perform frontPageSize frontPage act).2.word
      frontPage frontPosition = front') :
    Step.Ends (Queue.onFront access) s
      ((s.1.disk.image (frontDir :: base)).perform frontPageSize frontPage act).1 fun t =>
        Tells base t said head front' := by
  obtain ⟨b, hfaces, hhead, hsaid⟩ := h.faces
  have hpage := hfaces.copes.withPage (hfaces.pageSize.symm ▸ hacts) hfaces.granted
  rw [hfaces.pageSize] at hpage
  refine Step.Ends.inside (p := frontPart) (hpage.mono fun t ht => ⟨⟨b, ?_, hhead, fun index => ?_⟩, h.noFaults⟩)
  · have hout : ∀ f : Log.Folder, f.name :: base ∉ [frontDir :: base] := fun f =>
      folders_apart base _ (f.mem_folders base)
    have hframe := ht.refills.toFrame
    exact {
      log := {
        dataPageSize := hfaces.log.dataPageSize
        now := ht.now.trans hfaces.log.now
        head := hfaces.log.head
        tail := hfaces.log.tail
        cursor := hfaces.log.cursor
        copes := fun f => (hfaces.log.copes f).of_frame hframe (hout f)
        pageSize := hfaces.log.pageSize
        image := fun f => (hframe.image_eq (hout f)).trans (hfaces.log.image f) }
      copes := ht.copes
      pageSize := ht.pageSize.trans hfaces.pageSize
      word := ht.image ▸ hword
      granted := (ht.grant frontPage).trans hfaces.granted
      notClosed := hfaces.notClosed }
  · have hgrant : Log.grant base (t.1, s.2.1.log) = Log.grant base (s.1, s.2.1.log) := by
      funext f page
      exact Log.grant_of_frame (s := (s.1, s.2.1.log)) ht.refills.toFrame (folders_apart base) f page
    exact hgrant ▸ hsaid index

theorem Tells.readFront (h : Tells base s said head front) :
    Step.Ends readFront s (.ok front) fun t => Tells base t said head front := by
  obtain ⟨b, hfaces, -⟩ := h.faces
  obtain rfl := hfaces.word
  have hread := h.onFront (Page.acts_counter front_aligned front_bounds)
    (Image.word_touch (s.1.disk.image (frontDir :: base)) frontPageSize frontPage frontPage frontPosition)
  rwa [← Image.word_mapped (s.1.disk.image (frontDir :: base)) frontPageSize] at hread ⊢

theorem Tells.increment (h : Tells base s said head front) :
    Step.Ends (Queue.onFront (Page.increment frontPosition)) s (.ok front) fun t =>
      Tells base t said head (front + 1) := by
  obtain ⟨b, hfaces, -⟩ := h.faces
  obtain rfl := hfaces.word
  have hincrement := h.onFront (Page.acts_increment front_aligned front_bounds)
    (Image.word_setWord (s.1.disk.image (frontDir :: base)) frontPageSize frontPage frontPosition _)
  rwa [Image.word_mapped] at hincrement

-- Whether or not it fails, a read changes nothing of what any other read comes to.
theorem Tells.fetch (h : Tells base s said head front) (index : UInt64) :
    Step.Ends (onStore (Store.fetch index)) s (said index) fun t => Tells base t said head front := by
  obtain ⟨b, hfaces, hhead, hsaid⟩ := h.faces
  obtain ⟨b', hfetch, htouched⟩ := hfaces.log.ends_fetch index
  have hlike := htouched.like
  rw [hsaid] at hfetch
  refine Step.Ends.inside (p := storePart) ((ends_meet h.noFaults .fetch).bind ?_)
  rintro _ rfl
  refine Step.Ends.inside (p := Store.logPart) (hfetch.mono fun t ht => ⟨⟨b', ?_, ?_, fun other => ?_⟩, h.noFaults⟩)
  · have hout : frontDir :: base ∉ Log.folders base := fun hmem =>
      frontDir_not_mem base (List.mem_cons_of_mem _ hmem)
    exact {
      log := ht.faces
      copes := hfaces.copes.of_frame ht.frame hout
      pageSize := hfaces.pageSize
      word := (ht.frame.image_eq hout).symm ▸ hfaces.word
      granted := (Cache.grant_of_frame ht.frame hout _ _).trans hfaces.granted
      notClosed := hfaces.notClosed }
  · exact hlike.head.trans hhead
  · have hgrant : Log.grant base t = Log.grant base (s.1, s.2.1.log) := by
      funext f page
      exact ht.grant f page
    exact hgrant ▸ (hlike.heard_eq _ other).trans (hsaid other)

theorem Tells.frontIndex (h : Tells base s said head front) :
    Step.Ends Queue.frontIndex s (.ok front) fun t => Tells base t said head front :=
  h.expectOpen_bind h.readFront

theorem Tells.size (h : Tells base s said head front) :
    Step.Ends Queue.size s (.ok (head - front)) fun t => Tells base t said head front := by
  unfold Queue.size
  refine h.expectOpen_bind (h.readFront.bind fun t ht => ?_)
  refine Step.ends_bind_of_run (run_store t) ?_
  rw [ht.head_eq]
  exact Step.ends_pure ht

theorem Tells.isEmpty (h : Tells base s said head front) :
    Step.Ends Queue.isEmpty s (.ok (front = head)) fun t => Tells base t said head front := by
  unfold Queue.isEmpty
  refine h.expectOpen_bind (h.readFront.bind fun t ht => ?_)
  refine Step.ends_bind_of_run (run_store t) ?_
  rw [ht.head_eq]
  exact Step.ends_pure ht

-- The front moves on even if the item cannot be read.
theorem Tells.dequeue (h : Tells base s said head front) (hsome : front ≠ head) :
    Step.Ends Queue.dequeue s ((said front).map some) fun t => Tells base t said head (front + 1) := by
  unfold Queue.dequeue
  refine h.expectOpen_bind (h.readFront.bind fun t ht => ?_)
  refine Step.ends_bind_of_run (run_store t) ?_
  rw [if_neg (ht.head_eq.symm ▸ hsome)]
  refine ht.increment.bind fun u hu => ?_
  exact (hu.fetch front).map some

theorem Tells.peekAt (h : Tells base s said head front) {k : Nat} (hk : k < (head - front).toNat) :
    Step.Ends (Queue.peekAt k) s ((said (front + UInt64.ofNat k)).map some) fun t =>
      Tells base t said head front := by
  unfold Queue.peekAt
  refine h.expectOpen_bind ?_
  rw [if_neg (Int.not_lt.mpr (Int.natCast_nonneg k))]
  refine h.readFront.bind fun t ht => ?_
  refine Step.ends_bind_of_run (run_store t) ?_
  rw [Int.toNat_natCast, ht.head_eq, if_neg (Nat.not_le.mpr hk)]
  exact (ht.fetch _).map some

-- What is read from an index on, item by item.
def reads (said : UInt64 → Except Error Bytes) (index : UInt64) (n : Nat) : List (Except Error Bytes) :=
  (List.range n).map fun k => said (index + UInt64.ofNat k)

theorem reads_succ (said : UInt64 → Except Error Bytes) (index : UInt64) (n : Nat) :
    reads said index (n + 1) = said index :: reads said (index + 1) n := by
  unfold reads
  rw [List.range_succ_eq_map, List.map_cons, List.map_map]
  congr 1
  · exact congrArg said (UInt64.add_zero index)
  · refine List.map_congr_left fun k _ => congrArg said ?_
    rw [Circle.add_ofNat_succ]
    grind

theorem length_reads (said : UInt64 → Except Error Bytes) (index : UInt64) (n : Nat) :
    (reads said index n).length = n := by
  rw [reads, List.length_map, List.length_range]

theorem getElem?_reads (said : UInt64 → Except Error Bytes) (index : UInt64) {n k : Nat} (hk : k < n) :
    (reads said index n)[k]? = some (said (index + UInt64.ofNat k)) := by
  rw [reads, List.getElem?_map, List.getElem?_range hk, Option.map_some]

theorem drop_reads (said : UInt64 → Except Error Bytes) (index : UInt64) (n k : Nat) :
    (reads said index n).drop k = reads said (index + UInt64.ofNat k) (n - k) := by
  refine List.ext_getElem? fun i => ?_
  rw [List.getElem?_drop]
  by_cases hi : k + i < n
  · rw [getElem?_reads said index hi, getElem?_reads said _ (Nat.lt_sub_of_add_lt (by omega)),
      Circle.add_ofNat_add]
  · rw [List.getElem?_eq_none (by rw [length_reads]; omega), List.getElem?_eq_none (by rw [length_reads]; omega)]

-- What was read before the first error, and that error if there is one.
def untilError : List (Except Error α) → List α × Except Error Unit
  | [] => ([], .ok ())
  | .error e :: _ => ([], .error e)
  | .ok a :: rs => (a :: (untilError rs).1, (untilError rs).2)

-- An item is taken at each step, or passed over.
theorem Tells.dequeues (h : Tells base s said head front) {n : Nat} (hn : n ≤ (head - front).toNat) :
    (Step.series Queue.dequeue n s).1 = (reads said front n).map (Except.map some) ∧
      Tells base (Step.series Queue.dequeue n s).2 said head (front + UInt64.ofNat n) := by
  induction n generalizing s front with
  | zero => exact ⟨rfl, (UInt64.add_zero front).symm ▸ h⟩
  | succ n ih =>
      have hsome : front ≠ head := by
        rintro rfl
        rw [UInt64.sub_self] at hn
        exact absurd hn (Nat.not_succ_le_zero n)
      obtain ⟨hresult, hnext⟩ := h.dequeue hsome
      have hle : n ≤ (head - (front + 1)).toNat := by
        have hone := Circle.toNat_sub_succ hsome
        omega
      obtain ⟨hresults, hend⟩ := ih hnext hle
      refine ⟨?_, ?_⟩
      · rw [Step.series, reads_succ, List.map_cons, hresult, hresults]
      · have hfront : front + 1 + UInt64.ofNat n = front + UInt64.ofNat (n + 1) := by
          rw [Circle.add_ofNat_succ]
          grind
        exact hfront ▸ hend

theorem Tells.visitFrom (h : Tells base s said head front) (n : Nat) (index : UInt64) :
    Step.Ends (Queue.visitFrom pure n index) s (.ok (untilError (reads said index n))) fun t =>
      Tells base t said head front := by
  induction n generalizing s index with
  | zero => exact Step.ends_pure h
  | succ n ih =>
      have hfetch := (h.fetch index).attempt
      rw [reads_succ]
      unfold Queue.visitFrom
      cases hread : said index with
      | error e =>
          rw [hread] at hfetch
          exact hfetch.bind fun t ht => Step.ends_pure ht
      | ok payload =>
          rw [hread] at hfetch
          refine hfetch.bind fun t ht => ?_
          refine Step.ends_bind_of_run (Step.run_pure payload t) ?_
          exact (ih ht (index + 1)).bind fun u hu => Step.ends_pure hu

theorem Tells.forEach (h : Tells base s said head front) :
    Step.Ends (Queue.forEach pure) s (.ok (untilError (reads said front (head - front).toNat))) fun t =>
      Tells base t said head front := by
  unfold Queue.forEach
  refine h.expectOpen_bind ?_
  refine Step.ends_bind_of_run (run_store s) (h.readFront.bind fun t ht => ?_)
  rw [h.head_eq]
  exact ht.visitFrom _ _

end

end Spool.Queue
