import TenantLibrary.Lib.Session

/-!
Programs carried along a view of the store.

A view shows a store in another form: the rows of one owner among several, or the same
rows under other names. When the store does with a translated write on the view what it
does with the write on the whole, programs can be carried along: `Carries f program image`
says that `image`, run on the view, ends with `f` of the program's result and with the
view of what the program leaves. The rules follow the structure of programs, so that only
the queries and the writes of a program need an argument of their own.

`Share.Local` is the case of a program that is its own image.
-/

namespace TenantLibrary.Lib

variable {Db Write Owner δ ε α β α' β' : Type}

/-- A view of the stores in which `Inv` holds, for the writes that satisfy `Owns`. -/
structure Share (Db Write : Type) where
  view : Db → Db
  translate : Write → Write
  Inv : Db → Prop
  Owns : Write → Prop

/-- A session seen through a view. -/
def Session.map (view : Db → Db) (translate : Write → Write) (s : Session Db Write) :
    Session Db Write :=
  ⟨view s.committed, view s.tx, s.pending.map translate, s.failed⟩

namespace Share

variable (share : Share Db Write)

/-- `send'` does with the translated write on the view what `send` does on the whole. -/
def Sends (send send' : Write → Db → Except δ Db) : Prop :=
  ∀ write db, share.Owns write → share.Inv db →
    send' (share.translate write) (share.view db) = (send write db).map share.view ∧
      ∀ after, send write db = .ok after → share.Inv after

/-- Both stores of the session are sound and its pending writes are owned. -/
structure Holds (s : Session Db Write) : Prop where
  committed : share.Inv s.committed
  tx : share.Inv s.tx
  pending : ∀ write ∈ s.pending, share.Owns write

/-- A session seen through the share's view. -/
def viewSession (s : Session Db Write) : Session Db Write := s.map share.view share.translate

/-- `image` does on the view what the program does on the whole; `Q` holds of the
program's result. -/
def Carries (f : α → β) (program : SessionM Db Write δ ε α) (image : SessionM Db Write δ ε β)
    (Q : α → Prop) : Prop :=
  ∀ s, share.Holds s → share.Holds (program.runOn s).2 ∧
    image.runOn (share.viewSession s) = ((program.runOn s).1.map f, share.viewSession (program.runOn s).2) ∧
    ∀ a, (program.runOn s).1 = .ok a → Q a

variable {share} {send send' : Write → Db → Except δ Db} {f : α → α'} {g : β → β'} {Q : α → Prop}

theorem Sends.all (sends : share.Sends send send') {writes : List Write} {db : Db}
    (owned : ∀ write ∈ writes, share.Owns write) (inv : share.Inv db) :
    sendAll send' (writes.map share.translate) (share.view db) =
        (sendAll send writes db).map share.view ∧
      ∀ after, sendAll send writes db = .ok after → share.Inv after := by
  induction writes generalizing db with
  | nil =>
      refine ⟨rfl, fun after same => ?_⟩
      obtain rfl := Except.ok.inj same
      exact inv
  | cons write rest ih =>
      obtain ⟨seen, kept⟩ := sends write db (owned write List.mem_cons_self) inv
      simp only [List.map_cons, sendAll, seen]
      cases sent : send write db with
      | error error =>
          refine ⟨rfl, fun after same => ?_⟩
          cases same
      | ok next =>
          exact ih (fun later mem => owned later (List.mem_cons_of_mem _ mem)) (kept next sent)

theorem Holds.dead {s : Session Db Write} (holds : share.Holds s) :
    share.Holds (.dead s.committed : Session Db Write) :=
  ⟨holds.committed, holds.committed, by simp [Session.dead]⟩

theorem holds_opened {db : Db} (inv : share.Inv db) :
    share.Holds (.opened db : Session Db Write) :=
  ⟨inv, inv, by simp [Session.opened]⟩

namespace Carries

theorem pure {a : α} {a' : α'} (same : a' = f a) (holds : Q a) :
    share.Carries f (Pure.pure a : SessionM Db Write δ ε α) (Pure.pure a') Q := by
  intro s held
  subst same
  refine ⟨held, rfl, fun b same => ?_⟩
  obtain rfl := Except.ok.inj same
  exact holds

theorem throw (e : SessionError δ ε) :
    share.Carries f (MonadExcept.throw e : SessionM Db Write δ ε α) (MonadExcept.throw e) Q := by
  intro s held
  refine ⟨held, rfl, fun b same => ?_⟩
  cases same

theorem weaken {P : α → Prop} {program : SessionM Db Write δ ε α}
    {image : SessionM Db Write δ ε α'} (carries : share.Carries f program image P)
    (implied : ∀ a, P a → Q a) : share.Carries f program image Q := by
  intro s held
  obtain ⟨kept, seen, post⟩ := carries s held
  exact ⟨kept, seen, fun a same => implied a (post a same)⟩

theorem bind {P : α → Prop} {Q : β → Prop} {program : SessionM Db Write δ ε α}
    {image : SessionM Db Write δ ε α'} {next : α → SessionM Db Write δ ε β}
    {nextImage : α' → SessionM Db Write δ ε β'} (first : share.Carries f program image P)
    (then_ : ∀ a, P a → share.Carries g (next a) (nextImage (f a)) Q) :
    share.Carries g (program >>= next) (image >>= nextImage) Q := by
  intro s held
  obtain ⟨kept, seen, post⟩ := first s held
  rw [SessionM.runOn_bind, SessionM.runOn_bind, seen]
  rcases ran : program.runOn s with ⟨result, t⟩
  rw [ran] at kept post
  cases result with
  | error e =>
      refine ⟨kept, rfl, fun b same => ?_⟩
      cases same
  | ok a => exact then_ a (post a rfl) t kept

/-- The same for a condition that chooses the first program. -/
theorem ite_bind {P : α → Prop} {Q : β → Prop} {condition : Prop} [Decidable condition]
    {program other : SessionM Db Write δ ε α} {image otherImage : SessionM Db Write δ ε α'}
    {next : α → SessionM Db Write δ ε β} {nextImage : α' → SessionM Db Write δ ε β'}
    (first : share.Carries f (if condition then program else other)
      (if condition then image else otherImage) P)
    (then_ : ∀ a, P a → share.Carries g (next a) (nextImage (f a)) Q) :
    share.Carries g (if condition then program >>= next else other >>= next)
      (if condition then image >>= nextImage else otherImage >>= nextImage) Q := by
  by_cases holds : condition
  · simp only [if_pos holds] at first ⊢
    exact first.bind then_
  · simp only [if_neg holds] at first ⊢
    exact first.bind then_

theorem tryCatch {program : SessionM Db Write δ ε α} {image : SessionM Db Write δ ε α'}
    {handler : SessionError δ ε → SessionM Db Write δ ε α}
    {handlerImage : SessionError δ ε → SessionM Db Write δ ε α'}
    (tried : share.Carries f program image Q)
    (handled : ∀ e, share.Carries f (handler e) (handlerImage e) Q) :
    share.Carries f (MonadExcept.tryCatch program handler)
      (MonadExcept.tryCatch image handlerImage) Q := by
  intro s held
  obtain ⟨kept, seen, post⟩ := tried s held
  rw [SessionM.runOn_tryCatch, SessionM.runOn_tryCatch, seen]
  rcases ran : program.runOn s with ⟨result, t⟩
  rw [ran] at kept post
  cases result with
  | error e => exact handled e t kept
  | ok a => exact ⟨kept, rfl, post⟩

theorem add {write : Write} (owned : share.Owns write) :
    share.Carries id (SessionM.add write : SessionM Db Write δ ε Unit)
      (SessionM.add (share.translate write)) fun _ => True := by
  intro s held
  refine ⟨⟨held.committed, held.tx, fun other mem => ?_⟩, ?_, fun _ _ => trivial⟩
  · rcases List.mem_append.mp mem with old | new
    · exact held.pending other old
    · exact List.mem_singleton.mp new ▸ owned
  · simp only [SessionM.runOn_add, viewSession, Session.map, List.map_append]
    rfl

theorem flush (sends : share.Sends send send') :
    share.Carries id (SessionM.flush send : SessionM Db Write δ ε Unit) (SessionM.flush send')
      fun _ => True := by
  rintro ⟨committed, tx, pending, failed⟩ held
  obtain ⟨seen, kept⟩ := sends.all held.pending held.tx
  refine and_assoc.mp ⟨?_, fun _ _ => trivial⟩
  cases pending with
  | nil => exact ⟨held, rfl⟩
  | cons first rest =>
      cases failed with
      | true => exact ⟨held, rfl⟩
      | false =>
          rw [SessionM.runOn_flush _ _ rfl, SessionM.runOn_flush _ _ rfl]
          simp only [viewSession, Session.map, seen]
          cases sent : sendAll send (first :: rest) tx with
          | error e => exact ⟨held.dead, rfl⟩
          | ok db => exact ⟨⟨held.committed, kept db sent, by simp⟩, rfl⟩

theorem requireActive :
    share.Carries id (SessionM.requireActive : SessionM Db Write δ ε Unit)
      SessionM.requireActive fun _ => True := by
  rintro ⟨committed, tx, pending, failed⟩ held
  cases failed <;> exact ⟨held, rfl, fun _ _ => trivial⟩

/-- A query whose image returns on the view what `f` makes of its result on the whole. -/
theorem select (sends : share.Sends send send') {query : Db → α} {queryImage : Db → α'}
    (seen : ∀ db, share.Inv db → queryImage (share.view db) = f (query db)) :
    share.Carries f (SessionM.select send query : SessionM Db Write δ ε α)
      (SessionM.select send' queryImage) fun a => ∃ db, share.Inv db ∧ a = query db := by
  refine (flush sends).bind fun _ _ => requireActive.bind fun _ _ => ?_
  intro s held
  refine ⟨held, ?_, fun a same => ⟨s.tx, held.tx, (Except.ok.inj same).symm⟩⟩
  change ((.ok (queryImage (share.view s.tx)), share.viewSession s) :
    Except (SessionError δ ε) α' × Session Db Write) = _
  rw [seen s.tx held.tx]
  rfl

theorem commit (sends : share.Sends send send') :
    share.Carries id (SessionM.commit send : SessionM Db Write δ ε Unit) (SessionM.commit send')
      fun _ => True := by
  refine (flush sends).bind fun _ _ => requireActive.bind fun _ _ => ?_
  intro s held
  exact ⟨⟨held.tx, held.tx, held.pending⟩, rfl, fun _ _ => trivial⟩

theorem forM {γ γ' : Type} {rename : γ → γ'} {body : γ → SessionM Db Write δ ε Unit}
    {bodyImage : γ' → SessionM Db Write δ ε Unit} {xs : List γ}
    (each : ∀ x ∈ xs, share.Carries id (body x) (bodyImage (rename x)) fun _ => True) :
    share.Carries id (xs.forM body) ((xs.map rename).forM bodyImage) fun _ => True := by
  induction xs with
  | nil => exact pure rfl trivial
  | cons x rest ih =>
      exact (each x List.mem_cons_self).bind fun _ _ =>
        ih fun later mem => each later (List.mem_cons_of_mem _ mem)

/-- A carried program on a newly opened session: what it and its image return and commit. -/
theorem run {program : SessionM Db Write δ ε α} {image : SessionM Db Write δ ε α'}
    (carries : share.Carries f program image Q) {db : Db} (inv : share.Inv db) :
    share.Inv (program.runOn (.opened db)).2.committed ∧
      (image.runOn (.opened (share.view db))).1 = (program.runOn (.opened db)).1.map f ∧
      (image.runOn (.opened (share.view db))).2.committed =
        share.view (program.runOn (.opened db)).2.committed := by
  obtain ⟨kept, seen, _⟩ := carries _ (holds_opened inv)
  have mapped : share.viewSession (Session.opened db) = .opened (share.view db) := rfl
  rw [mapped] at seen
  rw [seen]
  exact ⟨kept.committed, rfl, rfl⟩

end Carries

/-! ### Programs that are their own image -/

/-- A program that does on the view what it does on the whole; `Q` holds of its result. -/
def Local (share : Share Db Write) (program : SessionM Db Write δ ε α) (Q : α → Prop) : Prop :=
  share.Carries id program program Q

namespace Local

theorem pure {a : α} (holds : Q a) : share.Local (Pure.pure a : SessionM Db Write δ ε α) Q :=
  Carries.pure rfl holds

theorem throw (e : SessionError δ ε) :
    share.Local (MonadExcept.throw e : SessionM Db Write δ ε α) Q :=
  Carries.throw e

theorem weaken {P : α → Prop} {program : SessionM Db Write δ ε α} (isLocal : share.Local program P)
    (implied : ∀ a, P a → Q a) : share.Local program Q :=
  Carries.weaken isLocal implied

theorem bind {P : α → Prop} {Q : β → Prop} {program : SessionM Db Write δ ε α}
    {next : α → SessionM Db Write δ ε β} (first : share.Local program P)
    (then_ : ∀ a, P a → share.Local (next a) Q) : share.Local (program >>= next) Q :=
  Carries.bind first then_

theorem ite_bind {P : α → Prop} {Q : β → Prop} {condition : Prop} [Decidable condition]
    {program other : SessionM Db Write δ ε α} {next : α → SessionM Db Write δ ε β}
    (first : share.Local (if condition then program else other) P)
    (then_ : ∀ a, P a → share.Local (next a) Q) :
    share.Local (if condition then program >>= next else other >>= next) Q :=
  Carries.ite_bind first then_

theorem tryCatch {program : SessionM Db Write δ ε α}
    {handler : SessionError δ ε → SessionM Db Write δ ε α} (tried : share.Local program Q)
    (handled : ∀ e, share.Local (handler e) Q) :
    share.Local (MonadExcept.tryCatch program handler) Q :=
  Carries.tryCatch tried handled

theorem add {write : Write} (owned : share.Owns write) (same : share.translate write = write) :
    share.Local (SessionM.add write : SessionM Db Write δ ε Unit) fun _ => True := by
  have carries : share.Carries id (SessionM.add write : SessionM Db Write δ ε Unit)
      (SessionM.add (share.translate write)) fun _ => True := Carries.add owned
  rw [same] at carries
  exact carries

theorem forM {γ : Type} {body : γ → SessionM Db Write δ ε Unit} {xs : List γ}
    (each : ∀ x ∈ xs, share.Local (body x) fun _ => True) :
    share.Local (xs.forM body) fun _ => True := by
  have carries : share.Carries id (xs.forM body) ((xs.map id).forM body) fun _ => True :=
    Carries.forM each
  rw [List.map_id] at carries
  exact carries

theorem run {program : SessionM Db Write δ ε α} (isLocal : share.Local program Q) {db : Db}
    (inv : share.Inv db) :
    share.Inv (program.runOn (.opened db)).2.committed ∧
      (program.runOn (.opened (share.view db))).1 = (program.runOn (.opened db)).1 ∧
      (program.runOn (.opened (share.view db))).2.committed =
        share.view (program.runOn (.opened db)).2.committed := by
  obtain ⟨kept, sameResult, sameDb⟩ := Carries.run isLocal inv
  rw [Except.map_id] at sameResult
  exact ⟨kept, sameResult, sameDb⟩

end Local

/-! ### Several owners -/

section Owners

variable (views : Owner → Db → Db) (Sound : Db → Prop) (own : Owner)

/-- The share of one owner among several: the views of the others stay as in `before`. -/
def among (Owns : Write → Prop) (before : Db) : Share Db Write where
  view := views own
  translate := id
  Inv db := Sound db ∧ ∀ other, other ≠ own → views other db = views other before
  Owns := Owns

/-- What a write of one owner does to the store of all: it does the same on the owner's
view, keeps the store sound, and the other views stay. -/
structure Respects (write : Db → Except δ Db) (db : Db) : Prop where
  seen : write (views own db) = (write db).map (views own)
  kept : ∀ after, write db = .ok after → Sound after
  others : ∀ after, write db = .ok after → ∀ other, other ≠ own → views other after = views other db

variable {views Sound own}

theorem sends_among {Owns : Write → Prop} {before : Db}
    (respects : ∀ write db, Owns write → Sound db → Respects views Sound own (send write) db) :
    (among views Sound own Owns before).Sends send send := by
  rintro write db owned ⟨sound, others⟩
  have one := respects write db owned sound
  refine ⟨one.seen, fun after sent => ⟨one.kept after sent, fun other different => ?_⟩⟩
  rw [one.others after sent other different, others other different]

/-- A check of the write alone before it is made. -/
theorem Respects.guard {check : Except δ Unit} {write : Db → Except δ Db} {db : Db}
    (respects : Respects views Sound own write db) :
    Respects views Sound own (fun db => check >>= fun _ => write db) db := by
  cases check with
  | error e =>
      refine ⟨rfl, fun after sent => ?_, fun after sent => ?_⟩
      · cases sent
      · cases sent
  | ok _ => exact respects

end Owners

end Share

end TenantLibrary.Lib
