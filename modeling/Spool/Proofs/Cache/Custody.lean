import Spool.Proofs.Cache.Dealing

namespace Spool.Cache

-- What may be asked of a cache, with the pages that are dealt with.
inductive Deed where
  | acquire (index : UInt64)
  -- A page that is given back at once.
  | borrow (index : UInt64)
  | release (id : PageId)
  | flush
  | evictIdle
  | delete (index : UInt64)
  | deleteBefore (index : UInt64)
  | deleteAll
  | releaseAll
  | close
  -- Whatever others do to the disk, and to what it refuses.
  | others (change : Disk → Disk)

def Deed.perform : Deed → Action (List Deal)
  | acquire index => do
    let id ← Cache.acquire index
    return [.take id]
  | borrow index => do
    let id ← Cache.acquire index
    releasePage id
    return [.take id, .give id]
  | release id => do
    releasePage id
    return [.give id]
  | flush => do
    Cache.flush
    return []
  | evictIdle => do
    modify fun (host, c) => (host, c.evictIdle host.now)
    return []
  | delete index => do
    Cache.delete index
    return []
  | deleteBefore index => do
    Cache.deleteBefore index
    return []
  | deleteAll => do
    Cache.deleteAll
    return []
  | releaseAll => do
    Cache.releaseAll
    return []
  | close => do
    Cache.close
    return []
  | others change => do
    modify fun (host, c) => ({ host with disk := change host.disk }, c)
    return []

-- Something that is asked at some reading of the clock.
structure Event where
  now : Nat
  deed : Deed

namespace Event

def act (e : Event) : Action (List Deal) := do
  modify fun s => ({ s.1 with now := e.now }, s.2)
  e.deed.perform

def perform (e : Event) : Action Unit :=
  discard e.act

-- The pages that an event deals with. A request that fails deals with none.
def deals (e : Event) (s : Host × Cache) : List Deal :=
  (e.act.run s).1.toOption.getD []

-- An event hands out a page for some number.
def Hands (e : Event) (s : Host × Cache) (index : UInt64) (id : PageId) : Prop :=
  (e.deed = .acquire index ∨ e.deed = .borrow index) ∧ .take id ∈ e.deals s

-- An event takes the page of some number from the cache.
def Removes (e : Event) (index : UInt64) (s : Host × Cache) : Prop :=
  s.2.resident[index]?.isSome ∧ (e.perform.run s).2.2.resident[index]? = none

end Event

abbrev History := List (Nat × Deal)

-- What was dealt with in a run, and when.
def history : List Event → Host × Cache → History
  | [], _ => []
  | e :: es, s => (e.deals s).map (e.now, ·) ++ history es (e.perform.run s).2

namespace History

def taken (h : History) (id : PageId) : Nat :=
  h.countP fun entry => entry.2 = .take id

def given (h : History) (id : PageId) : Nat :=
  h.countP fun entry => entry.2 = .give id

-- When a page was last dealt with.
def lastTime? (h : History) (id : PageId) : Option Nat :=
  (h.reverse.find? fun entry => entry.2.page = id).map Prod.fst

-- Nobody holds a page, and it was not dealt with for some time.
def isIdle (h : History) (c : Cache) (now : Nat) (ttl : Span) (id : PageId) : Bool :=
  h.given id = h.taken id &&
    (h.lastTime? id).any fun time => ttl.toMillis ≤ c.millis now - c.millis time

-- No page was ever given back more often than it was handed out.
def Balanced (h : History) : Prop :=
  ∀ front, front <+: h → ∀ id, given front id ≤ taken front id

end History

section

variable {s t : Host × Cache} {e : Event} {h : History} {c c' : Cache} {index : UInt64} {id : PageId}
  {r : Resident} {d : Deal} {ds : List Deal} {now : Nat} {gone : UInt64 → Bool}

-- What an event comes to: pages are dropped, or they are dealt with.
def Event.Comes (e : Event) (c c' : Cache) (ds : List Deal) : Prop :=
  (ds = [] ∧ ∃ gone, Drops gone c c') ∨ Dealings e.now c ds c'

theorem Event.of_ends {r : Except Error (List Deal)} {post : Host × Cache → Prop}
    (hends : Step.Ends e.deed.perform ({ s.1 with now := e.now }, s.2) r post) :
    e.deals s = r.toOption.getD [] ∧ post (e.perform.run s).2 := by
  have hact : Step.Ends e.act s r post := by
    unfold Event.act
    refine (Step.ends_modify (Eq.refl _)).bind ?_
    rintro _ rfl
    exact hends
  unfold Event.deals Event.perform
  rw [hact.1]
  exact ⟨rfl, hact.discard.2⟩

theorem Event.comes_of_ends {r : Except Error (List Deal)}
    (hends : Step.Ends e.deed.perform ({ s.1 with now := e.now }, s.2) r fun t =>
      e.Comes s.2 t.2 (r.toOption.getD [])) : e.Comes s.2 (e.perform.run s).2.2 (e.deals s) := by
  obtain ⟨hdeals, hcomes⟩ := Event.of_ends hends
  rw [hdeals]
  exact hcomes

-- What deals with no page.
theorem Event.comes_of_drops {x : Action Unit} {r : Except Error Unit}
    (hdeed : e.deed.perform = x >>= fun _ => pure [])
    (hends : Step.Ends x ({ s.1 with now := e.now }, s.2) r fun t => ∃ gone, Drops gone s.2 t.2) :
    e.Comes s.2 (e.perform.run s).2.2 (e.deals s) := by
  have hquiet : (r.map fun _ => ([] : List Deal)).toOption.getD [] = [] := by
    cases r <;> rfl
  refine Event.comes_of_ends (r := r.map fun _ => []) ?_
  rw [hdeed, hquiet]
  exact (hends.mono fun t ht => .inl ⟨rfl, ht⟩).map _

theorem Event.comes (e : Event) (h : s.2.Orderly) :
    e.Comes s.2 (e.perform.run s).2.2 (e.deals s) := by
  obtain ⟨now, deed⟩ := e
  cases deed with
  | acquire index =>
      rcases h.ends_acquire { s.1 with now } index with ⟨e, hends⟩ | ⟨id, hends⟩
      · refine Event.comes_of_ends (r := .error e) (hends.mono fun t ht => ?_).bind_error
        exact .inl ⟨rfl, _, .of_eq ht⟩
      · refine Event.comes_of_ends (r := .ok [.take id]) (hends.bind fun t ht => ?_)
        exact Step.ends_pure (.inr (.cons ht.2.1 (.nil _)))
  | borrow index =>
      rcases h.ends_acquire { s.1 with now } index with ⟨e, hends⟩ | ⟨id, hends⟩
      · refine Event.comes_of_ends (r := .error e) (hends.mono fun t ht => ?_).bind_error
        exact .inl ⟨rfl, _, .of_eq ht⟩
      · refine Event.comes_of_ends (r := .ok [.take id, .give id]) (hends.bind fun t ht => ?_)
        obtain ⟨hnow, htake, -⟩ := ht
        have hgive := htake.orderly.deals_release id t.1.now
        rw [show t.1.now = now from hnow] at hgive
        refine (Step.ends_modify (Eq.refl _)).bind ?_
        rintro _ rfl
        show Step.Ends _ (t.1, t.2.release t.1.now id) _ _
        rw [show t.1.now = now from hnow]
        exact Step.ends_pure (.inr (.cons htake (.cons hgive (.nil _))))
  | release id =>
      refine Event.comes_of_ends (r := .ok [.give id]) ?_
      refine (Step.ends_modify (Eq.refl _)).bind ?_
      rintro _ rfl
      exact Step.ends_pure (.inr (.cons (h.deals_release id now) (.nil _)))
  | flush => exact Event.comes_of_drops rfl ⟨rfl, _, drops_flushed s.2 _⟩
  | evictIdle =>
      refine Event.comes_of_drops rfl (Step.ends_modify ?_)
      show ∃ gone, Drops gone s.2 (s.2.evictIdle now)
      cases httl : s.2.policy.ttl? with
      | none => exact ⟨_, .of_eq (evictIdle_eq_self httl now)⟩
      | some ttl => exact ⟨_, h.drops_evictIdle httl now⟩
  | delete index => exact Event.comes_of_drops rfl ⟨rfl, _, h.drops_delete _ index⟩
  | deleteBefore index => exact Event.comes_of_drops rfl ⟨rfl, h.exists_drops_deleteWhere _ _⟩
  | deleteAll => exact Event.comes_of_drops rfl ⟨rfl, h.exists_drops_deleteWhere _ _⟩
  | releaseAll => exact Event.comes_of_drops rfl ⟨rfl, _, h.drops_emptied⟩
  | close => exact Event.comes_of_drops rfl ⟨rfl, _, h.drops_close _⟩
  | others change => exact Event.comes_of_drops rfl (Step.ends_modify ⟨_, .refl s.2⟩)

-- Holds come and go as the history says, if none is given back that was not handed out.
theorem Deal.count_add (d : Deal) {id : PageId} {holders given taken : Nat} (h : holders + given = taken)
    (hle : given + (if d = .give id then 1 else 0) ≤ taken + if d = .take id then 1 else 0) :
    d.count id holders + (given + if d = .give id then 1 else 0) =
      taken + if d = .take id then 1 else 0 := by
  unfold Deal.count
  cases d with
  | take other =>
      simp only [Deal.take.injEq, reduceCtorEq, if_false] at hle ⊢
      by_cases hid : id = other
      · rw [if_pos hid, if_pos hid.symm]
        omega
      · rw [if_neg hid, if_neg (Ne.symm hid)]
        omega
  | give other =>
      simp only [Deal.give.injEq, reduceCtorEq, if_false] at hle ⊢
      by_cases hid : id = other
      · rw [if_pos hid.symm] at hle ⊢
        rw [if_pos hid]
        omega
      · rw [if_neg hid, if_neg (Ne.symm hid)]
        omega

namespace History

theorem taken_concat (h : History) (now : Nat) (d : Deal) (id : PageId) :
    (h ++ [(now, d)]).taken id = h.taken id + if d = .take id then 1 else 0 := by
  simp [taken, List.countP_append, List.countP_singleton]

theorem given_concat (h : History) (now : Nat) (d : Deal) (id : PageId) :
    (h ++ [(now, d)]).given id = h.given id + if d = .give id then 1 else 0 := by
  simp [given, List.countP_append, List.countP_singleton]

theorem lastTime?_concat (h : History) (now : Nat) (d : Deal) (id : PageId) :
    (h ++ [(now, d)]).lastTime? id = if d.page = id then some now else h.lastTime? id := by
  unfold lastTime?
  rw [List.reverse_concat, List.find?_cons]
  by_cases hpage : d.page = id
  · simp [hpage]
  · simp [hpage]

theorem Balanced.front {h' : History} (hbalanced : (h ++ h').Balanced) : h.Balanced :=
  fun front hfront => hbalanced front (hfront.trans (List.prefix_append h h'))

end History

-- What the history of a cache tells about it.
structure Kept (policy : CachePolicy) (h : History) (c : Cache) : Prop where
  orderly : c.Orderly
  policy : c.policy = policy
  lastUse : ∀ {index : UInt64} {r : Resident}, c.resident[index]? = some r →
    (h.lastTime? r.page).map c.millis = some r.lastUse
  holders : h.Balanced → ∀ id, c.holders id + h.given id = h.taken id

variable {policy : CachePolicy}

theorem millis_eq (h : c'.openedAt = c.openedAt) : c'.millis = c.millis := by
  funext now
  unfold millis
  rw [h]

theorem Kept.drops (hkept : Kept policy h c) (hdrops : Drops gone c c') : Kept policy h c' where
  orderly := hdrops.orderly hkept.orderly
  policy := hdrops.policy.trans hkept.policy
  lastUse := by
    intro index r hr
    rw [hdrops.resident] at hr
    split at hr
    · cases hr
    · rw [millis_eq hdrops.openedAt]
      exact hkept.lastUse hr
  holders hbalanced id := by
    rw [hdrops.holders_eq]
    exact hkept.holders hbalanced id

theorem Kept.deals (hkept : Kept policy h c) (hdeals : Deals now d c c') :
    Kept policy (h ++ [(now, d)]) c' where
  orderly := hdeals.orderly
  policy := hdeals.policy.trans hkept.policy
  lastUse := by
    intro index r' hr'
    rw [millis_eq hdeals.openedAt, History.lastTime?_concat]
    cases hr : c.resident[index]? with
    | none =>
        obtain ⟨rfl, -⟩ := hdeals.fresh hr hr'
        rw [if_pos rfl]
        rfl
    | some r =>
        obtain rfl := Option.some.inj ((hdeals.kept hr).symm.trans hr')
        by_cases hpage : r.page = d.page
        · simp only [if_pos hpage]
          rfl
        · simp only [if_neg hpage, if_neg (Ne.symm hpage)]
          exact hkept.lastUse hr
  holders hbalanced id := by
    have hbefore := hkept.holders hbalanced.front id
    have hle := hbalanced _ (List.prefix_refl _) id
    rw [History.taken_concat, History.given_concat] at hle ⊢
    rw [hdeals.holders]
    exact d.count_add hbefore hle

theorem Kept.dealings (hkept : Kept policy h c) (hdealings : Dealings now c ds c') :
    Kept policy (h ++ ds.map (now, ·)) c' := by
  induction hdealings generalizing h with
  | nil c => simpa using hkept
  | cons hdeals _ ih => simpa using ih (hkept.deals hdeals)

theorem Kept.event (hkept : Kept policy h s.2) (e : Event) :
    Kept policy (h ++ (e.deals s).map (e.now, ·)) (e.perform.run s).2.2 := by
  rcases e.comes hkept.orderly with ⟨hnone, gone, hdrops⟩ | hdealings
  · rw [hnone, List.map_nil, List.append_nil]
    exact hkept.drops hdrops
  · exact hkept.dealings hdealings

theorem Kept.after (hkept : Kept policy h s.2) (es : List Event) :
    Kept policy (h ++ history es s) (Step.after (es.map Event.perform) s).2 := by
  induction es generalizing h s with
  | nil => exact (List.append_nil h).symm ▸ hkept
  | cons e es ih =>
      rw [history, ← List.append_assoc]
      exact ih (hkept.event e)

-- What a cache would hand out later is what it would hand out now, or has not been handed out yet.
structure Follows (c c' : Cache) : Prop where
  issued : c.pages.size ≤ c'.pages.size
  resident : ∀ {index : UInt64} {r' : Resident}, c'.resident[index]? = some r' →
    (∃ r, c.resident[index]? = some r ∧ r.page = r'.page) ∨ c.pages.size ≤ r'.page

-- The page of a number is not replaced by another.
def Retains (c c' : Cache) : Prop :=
  ∀ ⦃index : UInt64⦄ ⦃r r' : Resident⦄, c.resident[index]? = some r → c'.resident[index]? = some r' →
    r'.page = r.page

theorem Follows.refl (c : Cache) : Follows c c :=
  ⟨Nat.le_refl _, fun hr => .inl ⟨_, hr, rfl⟩⟩

theorem Follows.trans {c'' : Cache} (h : Follows c c') (h' : Follows c' c'') : Follows c c'' where
  issued := Nat.le_trans h.issued h'.issued
  resident hr'' := by
    rcases h'.resident hr'' with ⟨r', hr', hpage⟩ | hle
    · rcases h.resident hr' with ⟨r, hr, hpage'⟩ | hle
      · exact .inl ⟨r, hr, hpage'.trans hpage⟩
      · exact .inr (hpage ▸ hle)
    · exact .inr (Nat.le_trans h.issued hle)

theorem Drops.follows (h : Drops gone c c') : Follows c c' where
  issued := Nat.le_of_eq h.issued.symm
  resident hr' := by
    rw [h.resident] at hr'
    split at hr'
    · cases hr'
    · exact .inl ⟨_, hr', rfl⟩

theorem Drops.retains (h : Drops gone c c') : Retains c c' := by
  intro index r r' hr hr'
  rw [h.resident] at hr'
  split at hr'
  · cases hr'
  · cases hr.symm.trans hr'
    rfl

theorem Deals.exists_kept (h : Deals now d c c') (hr : c.resident[index]? = some r) :
    ∃ r', c'.resident[index]? = some r' ∧ r'.page = r.page := by
  refine ⟨_, h.kept hr, ?_⟩
  split
  · next hpage => exact hpage.symm
  · rfl

theorem Deals.follows (h : Deals now d c c') : Follows c c' where
  issued := h.issued
  resident {index r'} hr' := by
    cases hr : c.resident[index]? with
    | none =>
        obtain ⟨rfl, hle⟩ := h.fresh hr hr'
        exact .inr hle
    | some r =>
        obtain ⟨r'', hr'', hpage⟩ := h.exists_kept hr
        cases hr'.symm.trans hr''
        exact .inl ⟨r, rfl, hpage.symm⟩

theorem Dealings.exists_kept (h : Dealings now c ds c') (hr : c.resident[index]? = some r) :
    ∃ r', c'.resident[index]? = some r' ∧ r'.page = r.page := by
  induction h generalizing r with
  | nil c => exact ⟨r, hr, rfl⟩
  | cons hdeals _ ih =>
      obtain ⟨r', hr', hpage⟩ := hdeals.exists_kept hr
      obtain ⟨r'', hr'', hpage'⟩ := ih hr'
      exact ⟨r'', hr'', hpage'.trans hpage⟩

theorem Dealings.follows (h : Dealings now c ds c') : Follows c c' := by
  induction h with
  | nil c => exact .refl c
  | cons hdeals _ ih => exact hdeals.follows.trans ih

theorem Event.follows (e : Event) (h : s.2.Orderly) : Follows s.2 (e.perform.run s).2.2 := by
  rcases e.comes h with ⟨-, gone, hdrops⟩ | hdealings
  · exact hdrops.follows
  · exact hdealings.follows

theorem Event.retains (e : Event) (h : s.2.Orderly) : Retains s.2 (e.perform.run s).2.2 := by
  rcases e.comes h with ⟨-, gone, hdrops⟩ | hdealings
  · exact hdrops.retains
  · intro index r r' hr hr'
    obtain ⟨r'', hr'', hpage⟩ := hdealings.exists_kept hr
    cases hr'.symm.trans hr''
    exact hpage

theorem Dealings.orderly (hdealings : Dealings now c ds c') (h : c.Orderly) : c'.Orderly := by
  induction hdealings with
  | nil c => exact h
  | cons hdeals _ ih => exact ih hdeals.orderly

theorem Event.orderly (e : Event) (h : s.2.Orderly) : (e.perform.run s).2.2.Orderly := by
  rcases e.comes h with ⟨-, gone, hdrops⟩ | hdealings
  · exact hdrops.orderly h
  · exact hdealings.orderly h

theorem Event.orderly_after (es : List Event) (h : s.2.Orderly) :
    (Step.after (es.map Event.perform) s).2.Orderly := by
  induction es generalizing s with
  | nil => exact h
  | cons e es ih => exact ih (e.orderly h)

theorem Event.follows_after (es : List Event) (h : s.2.Orderly) :
    Follows s.2 (Step.after (es.map Event.perform) s).2 := by
  induction es generalizing s with
  | nil => exact .refl _
  | cons e es ih => exact (e.follows h).trans (ih (e.orderly h))

-- The page that was handed out is the one that the cache has then.
theorem Event.Hands.exists_resident (hhands : e.Hands s index id) (h : s.2.Orderly) :
    ∃ r, (e.perform.run s).2.2.resident[index]? = some r ∧ r.page = id := by
  obtain ⟨now, deed⟩ := e
  obtain ⟨hdeed, hmem⟩ := hhands
  rcases h.ends_acquire { s.1 with now } index with ⟨error, hends⟩ | ⟨other, hends⟩
  · have hfails : Event.deals ⟨now, deed⟩ s = [] := by
      rcases hdeed with rfl | rfl <;> exact (Event.of_ends (r := .error error) hends.bind_error).1
    rw [hfails] at hmem
    cases hmem
  · rcases hdeed with rfl | rfl
    · have hacquire : Step.Ends (Deed.acquire index).perform ({ s.1 with now }, s.2) (.ok [.take other])
          fun t => ∃ r, t.2.resident[index]? = some r ∧ r.page = other :=
        hends.bind fun t ht => Step.ends_pure ⟨_, ht.2.2, rfl⟩
      obtain ⟨hdeals, hresident⟩ := Event.of_ends (e := ⟨now, .acquire index⟩) hacquire
      obtain rfl : id = other := by simpa [hdeals, Except.toOption] using hmem
      exact hresident
    · have hborrow : Step.Ends (Deed.borrow index).perform ({ s.1 with now }, s.2)
          (.ok [.take other, .give other])
          fun t => ∃ r, t.2.resident[index]? = some r ∧ r.page = other := by
        refine hends.bind fun t ht => ?_
        obtain ⟨-, htake, hr⟩ := ht
        have hgive := htake.orderly.deals_release other t.1.now
        exact (Step.ends_modify (hgive.exists_kept hr)).map _
      obtain ⟨hdeals, hresident⟩ := Event.of_ends (e := ⟨now, .borrow index⟩) hborrow
      obtain rfl : id = other := by simpa [hdeals, Except.toOption] using hmem
      exact hresident

section Identity

variable {first second : Event} {mid : List Event} {id' : PageId}

-- A page that has left the cache does not come back.
theorem not_removes_of_same (es : List Event) (h : s.2.Orderly) (hr : s.2.resident[index]? = some r)
    (hlast : ∃ r', (Step.after ((mid ++ es).map Event.perform) s).2.resident[index]? = some r' ∧
      r'.page = r.page) :
    Step.Along Event.perform (fun e s => ¬e.Removes index s) mid s := by
  induction mid generalizing s r with
  | nil => trivial
  | cons e mid ih =>
      have hnext := e.orderly h
      cases hr' : (e.perform.run s).2.2.resident[index]? with
      | none =>
          obtain ⟨p, hp, -⟩ := h.resident hr
          have hissued := lt_size_of_page? hp
          obtain ⟨r'', hr'', hpage⟩ := hlast
          rcases (Event.follows_after (mid ++ es) hnext).resident hr'' with ⟨_, hsome, -⟩ | hle
          · cases hr'.symm.trans hsome
          · have hlt := Nat.lt_of_lt_of_le hissued (e.follows h).issued
            exact absurd (hpage ▸ hle) (Nat.not_le_of_lt hlt)
      | some r' =>
          refine ⟨fun hremoves => ?_, ih hnext hr' ?_⟩
          · cases hr'.symm.trans hremoves.2
          · obtain ⟨r'', hr'', hpage⟩ := hlast
            exact ⟨r'', hr'', hpage.trans (e.retains h hr hr').symm⟩

theorem exists_resident_of_not_removes (h : s.2.Orderly) (hr : s.2.resident[index]? = some r)
    (hkept : Step.Along Event.perform (fun e s => ¬e.Removes index s) mid s) :
    ∃ r', (Step.after (mid.map Event.perform) s).2.resident[index]? = some r' ∧ r'.page = r.page := by
  induction mid generalizing s r with
  | nil => exact ⟨r, hr, rfl⟩
  | cons e mid ih =>
      obtain ⟨hnot, hrest⟩ := hkept
      cases hr' : (e.perform.run s).2.2.resident[index]? with
      | none => exact absurd ⟨by rw [hr]; rfl, hr'⟩ hnot
      | some r' =>
          obtain ⟨r'', hr'', hpage⟩ := ih (e.orderly h) hr' hrest
          exact ⟨r'', hr'', hpage.trans (e.retains h hr hr')⟩

theorem same_page_iff (h : s.2.Orderly) (hfirst : first.Hands s index id)
    (hsecond : second.Hands (Step.after ((first :: mid).map Event.perform) s) index id') :
    id = id' ↔ Step.Along Event.perform (fun e s => ¬e.Removes index s) mid (first.perform.run s).2 := by
  have hnext := first.orderly h
  have hthen := Event.orderly_after mid hnext
  obtain ⟨r, hr, rfl⟩ := hfirst.exists_resident h
  obtain ⟨r'', hr'', hpage'⟩ := hsecond.exists_resident hthen
  constructor
  · intro hsame
    refine not_removes_of_same [second] hnext hr ⟨r'', ?_, hpage'.trans hsame.symm⟩
    rw [List.map_append, Step.after_append]
    exact hr''
  · intro hkept
    obtain ⟨r', hr', hpage⟩ := exists_resident_of_not_removes hnext hr hkept
    exact hpage.symm.trans ((second.retains hthen hr' hr'').symm.trans hpage')

end Identity

-- What a history tells about the pages of a cache, and what their holders may rely on.
structure Custody (policy : CachePolicy) (h : History) (s : Host × Cache) : Prop where
  -- A page comes back for its number until it is removed, and not after that.
  same_page : ∀ {first second : Event} {mid : List Event} {index : UInt64} {id id' : PageId},
    first.Hands s index id →
      second.Hands (Step.after ((first :: mid).map Event.perform) s) index id' →
        (id = id' ↔
          Step.Along Event.perform (fun e s => ¬e.Removes index s) mid (first.perform.run s).2)
  holders : h.Balanced → ∀ id, s.2.holders id + h.given id = h.taken id
  -- A page that was replaced is given back without a trace on the one in its place.
  stale : ∀ {id : PageId} {p : Page} (now : Nat), s.2.page? id = some p →
    s.2.isResident p id = false →
      (s.2.release now id).resident = s.2.resident ∧
        ∀ other, other ≠ id → (s.2.release now id).page? other = s.2.page? other
  lastUse : ∀ {index : UInt64} {r : Resident}, s.2.resident[index]? = some r →
    (h.lastTime? r.page).map s.2.millis = some r.lastUse
  evictIdle : h.Balanced → ∀ {ttl : Span}, policy.ttl? = some ttl → ∀ (now : Nat) (index : UInt64),
    (s.2.evictIdle now).resident[index]? =
      if s.2.resident[index]?.any fun r => h.isIdle s.2 now ttl r.page then none
      else s.2.resident[index]?
  evictIdle_held : h.Balanced → ∀ {index : UInt64} {r : Resident} (now : Nat),
    s.2.resident[index]? = some r → h.given r.page < h.taken r.page →
      (s.2.evictIdle now).resident[index]? = some r
  evictIdle_pinned : policy = .pinned → ∀ now, s.2.evictIdle now = s.2
  -- Every page that left the cache was closed.
  isOpen : ∀ {id : PageId} {p : Page}, s.2.page? id = some p → (p.isOpen = true ↔ s.2.isResident p id = true)

theorem release_of_stale {p : Page} (hp : c.page? id = some p) (hstale : c.isResident p id = false)
    (now : Nat) : c.release now id = c.modifyPage id Page.release := by
  unfold Cache.release
  simp only [hp, hstale, Bool.false_eq_true, if_false]

theorem Kept.isIdle_eq (hkept : Kept policy h c) (hbalanced : h.Balanced)
    (hr : c.resident[index]? = some r) (now : Nat) (ttl : Span) :
    h.isIdle c now ttl r.page = c.isIdle now ttl r := by
  obtain ⟨time, htime, hlast⟩ := Option.map_eq_some_iff.mp (hkept.lastUse hr)
  have hholders := hkept.holders hbalanced r.page
  have hfree : h.given r.page = h.taken r.page ↔ c.holders r.page = 0 := by omega
  unfold History.isIdle Cache.isIdle
  rw [htime, ← hlast, decide_eq_decide.mpr hfree, Option.any_some]

theorem Kept.evictIdle (hkept : Kept policy h c) (hbalanced : h.Balanced) {ttl : Span}
    (httl : policy.ttl? = some ttl) (now : Nat) (index : UInt64) :
    (c.evictIdle now).resident[index]? =
      if c.resident[index]?.any fun r => h.isIdle c now ttl r.page then none
      else c.resident[index]? := by
  rw [(hkept.orderly.drops_evictIdle (hkept.policy.symm ▸ httl) now).resident]
  cases hr : c.resident[index]? with
  | none => rw [Option.any_none, Option.any_none]
  | some r => rw [Option.any_some, Option.any_some, hkept.isIdle_eq hbalanced hr]

theorem Kept.custody (hkept : Kept policy h s.2) : Custody policy h s where
  same_page hfirst hsecond := same_page_iff hkept.orderly hfirst hsecond
  holders := hkept.holders
  stale now hp hstale := by
    rw [release_of_stale hp hstale]
    refine ⟨rfl, fun other hne => ?_⟩
    rw [page?_modifyPage, if_neg hne]
  lastUse := hkept.lastUse
  evictIdle hbalanced _ httl now index := hkept.evictIdle hbalanced httl now index
  evictIdle_held hbalanced index r now hr hheld := by
    cases httl : s.2.policy.ttl? with
    | none => rw [evictIdle_eq_self httl, hr]
    | some ttl =>
        have hnot : h.isIdle s.2 now ttl r.page = false := by
          simp [History.isIdle, Nat.ne_of_lt hheld]
        rw [hkept.evictIdle hbalanced (hkept.policy ▸ httl) now index, hr, Option.any_some, hnot]
        rfl
  evictIdle_pinned hpinned now := by
    refine evictIdle_eq_self ?_ now
    rw [hkept.policy, hpinned]
    rfl
  isOpen {id p} hp := by
    refine ⟨hkept.orderly.isResident hp, fun hresident => ?_⟩
    obtain ⟨r, hr, rfl⟩ := isResident_iff.mp hresident
    obtain ⟨q, hq, -, hopen⟩ := hkept.orderly.resident hr
    cases hp.symm.trans hq
    exact hopen

-- A cache starts with no pages.
theorem kept_open {dir : Path} {pageSize : Nat} {host host' : Host}
    (hopen : (Cache.open dir pageSize policy).run host = (.ok c, host')) : Kept policy [] c := by
  unfold Cache.open at hopen
  obtain ⟨_, _, -, hopen⟩ := Step.run_bind_eq_ok_iff.mp hopen
  obtain ⟨_, _, -, hopen⟩ := Step.run_bind_eq_ok_iff.mp hopen
  obtain ⟨_, _, -, hopen⟩ := Step.run_bind_eq_ok_iff.mp hopen
  cases hopen
  refine ⟨orderly_of_empty rfl rfl, rfl, fun {index r} hr => ?_, fun _ id => ?_⟩
  · simp at hr
  · rfl

end

theorem custody_law {dir : Path} {pageSize : Nat} {policy : CachePolicy} {host host' : Host} {c : Cache}
    (hopen : (Cache.open dir pageSize policy).run host = (.ok c, host')) (es : List Event) :
    Custody policy (history es (host', c)) (Step.after (es.map Event.perform) (host', c)) :=
  (Kept.after (s := (host', c)) (kept_open hopen) es).custody

-- A page is deleted while it is held, and is given back when another one has taken its place.
theorem custody_law_stale : ∃ host' c,
    (Cache.open ⟨"spool"⟩ 64 (.evict { secs := 0, nanos := 0 } { secs := 1, nanos := 0 })).run
      ⟨Disk.empty, 0⟩ = (.ok c, host') ∧
    let es : List Event := [⟨0, .acquire 0⟩, ⟨1, .delete 0⟩, ⟨2, .acquire 0⟩, ⟨3, .release 0⟩]
    let s := Step.after (es.map Event.perform) (host', c)
    (history es (host', c)).Balanced ∧ s.2.holders 0 = 0 ∧ s.2.holders 1 = 1 ∧
      Custody (.evict { secs := 0, nanos := 0 } { secs := 1, nanos := 0 }) (history es (host', c)) s := by
  have hopen : (Cache.open ⟨"spool"⟩ 64
      (.evict { secs := 0, nanos := 0 } { secs := 1, nanos := 0 })).run ⟨Disk.empty, 0⟩ =
      (.ok ⟨⟨"spool"⟩, 64, .evict { secs := 0, nanos := 0 } { secs := 1, nanos := 0 }, 0, 0, #[], ∅, false⟩,
        ⟨Disk.empty.addDirectory ["spool"], 0⟩) := rfl
  refine ⟨_, _, hopen, ?_, rfl, rfl, custody_law hopen _⟩
  show History.Balanced [(0, .take 0), (2, .take 1), (3, .give 0)]
  intro front hfront id
  simp only [List.prefix_cons_iff, List.prefix_nil] at hfront
  rcases hfront with rfl | ⟨_, rfl, rfl | ⟨_, rfl, rfl | ⟨_, rfl, rfl⟩⟩⟩
  · exact Nat.le_refl _
  · exact Nat.zero_le _
  · exact Nat.zero_le _
  · show List.countP _ _ ≤ List.countP _ _
    by_cases hid : id = 0
    · subst hid
      decide
    · simp [List.countP_cons, Ne.symm hid]

end Spool.Cache
