import Drovery.Concurrency.Sequential
import Drovery.Theorems.SavedAddresses

namespace Drovery.SavedAddresses

open Concurrency Method SavedAddressesService

-- Where the address is.
structure Place where
  address : String
  lat     : Option ℚ
  lng     : Option ℚ

def SavedAddress.place (row : SavedAddress) : Place where
  address := row.address
  lat     := row.lat
  lng     := row.lng

def Store.empty : Store where
  addresses := .empty

-- The store after calls that are made one after the other.
def Call.apply (c : Call) (db : Store) : Store :=
  (Prog.run Stmt.exec c.prog db).snd

def Store.after (cs : List Call) : Store :=
  cs.foldl (fun db c => c.apply db) .empty

-- The call, which finds the store `db`, gives the address `A` the coordinates of the place: those that
-- the client supplies for it, or those that the geocoder finds for its text.
inductive Call.Locates (db : Store) (A : AddressId) (place : Place) : Call → Prop
  | supplied {U : UserId} {dto : CreateSavedAddressDto} {geo : Option GeoPoint} {lat lng : ℚ} :
    A = db.addresses.next → dto.address = place.address → place.lat = some lat →
      place.lng = some lng → dto.lat = some lat → dto.lng = some lng →
        Locates db A place (.create U dto geo)
  | geocoded {U : UserId} {dto : CreateSavedAddressDto} {p : GeoPoint} :
    A = db.addresses.next → dto.address = place.address → place.lat = some p.lat →
      place.lng = some p.lng → Locates db A place (.create U dto (some p))
  | resupplied {U : UserId} {dto : UpdateSavedAddressDto} {geo : Option GeoPoint} {row : SavedAddress}
      {lat lng : ℚ} :
    db.addresses.find? A = some row → row.userId = U →
      dto.address.getD row.address = place.address → place.lat = some lat → place.lng = some lng →
      dto.lat = some (some lat) → dto.lng = some (some lng) → Locates db A place (.update U A dto geo)
  | regeocoded {U : UserId} {dto : UpdateSavedAddressDto} {p : GeoPoint} {row : SavedAddress} :
    db.addresses.find? A = some row → row.userId = U → dto.address = some place.address →
      place.lat = some p.lat → place.lng = some p.lng → Locates db A place (.update U A dto (some p))

-- There are no coordinates, or one of the calls has given both of them to this text.
def Located (cs : List Call) (A : AddressId) (place : Place) : Prop :=
  place.lat = none ∧ place.lng = none ∨
    ∃ pre c post, cs = pre ++ c :: post ∧ c.Locates (.after pre) A place

-- An update leaves no coordinates, or supplies both of them. Otherwise it supplies none for the text
-- that is stored, and the geocoder finds a new text.
def Call.Coherent (db : Store) : Call → Prop
  | .update U A dto geo => ∀ row, db.addresses.find? A = some row → row.userId = U →
    dto.lat.getD row.lat = none ∧ dto.lng.getD row.lng = none ∨
      (∃ lat lng, dto.lat = some (some lat) ∧ dto.lng = some (some lng)) ∨
      if dto.address.getD row.address = row.address then dto.lat = none ∧ dto.lng = none
      else geo.isSome ∧ (dto.lat = none ∨ dto.lng = none)
  | _ => True

def Coherent (db : Store) : List Call → Prop
  | []      => True
  | c :: cs => c.Coherent db ∧ Coherent (c.apply db) cs

-- Where an address comes from that is found after the call.
inductive Origin (db : Store) (A : AddressId) (row' : SavedAddress) : Call → Prop
  | kept {c : Call} {row : SavedAddress} : db.addresses.find? A = some row → row'.place = row.place →
    Origin db A row' c
  | created {U : UserId} {dto : CreateSavedAddressDto} {geo : Option GeoPoint} :
    A = db.addresses.next → row'.address = dto.address →
      (row'.lat, row'.lng) = resolveCoords dto.lat dto.lng geo → Origin db A row' (.create U dto geo)
  | updated {U : UserId} {dto : UpdateSavedAddressDto} {geo : Option GeoPoint} {row : SavedAddress} :
    db.addresses.find? A = some row → row.userId = U →
      row'.place = ((updateData row dto geo).apply row).place → Origin db A row' (.update U A dto geo)

section

variable {db : Store} {A B : AddressId} {U : UserId} {row row' : SavedAddress} {c : Call}
variable {cleared : List AddressId} {data : AddressData} {cs : List Call}

theorem place_apply (h : row.place = row'.place) : (data.apply row).place = (data.apply row').place := by
  obtain ⟨ha, hlat, hlng⟩ := Place.mk.inj h
  simp only [SavedAddress.place, AddressData.apply, ha, hlat, hlng]

-- The addresses of `db'` are where they are in `db`.
def Kept (db db' : Store) : Prop :=
  ∀ B row', db'.addresses.find? B = some row' →
    ∃ row, db.addresses.find? B = some row ∧ row'.place = row.place

theorem kept_clear : Kept db (db.clear cleared) := by
  intro B row' h
  rw [Store.clear, Serial.find?_updateMany] at h
  obtain ⟨row, hr, he⟩ := Option.map_eq_some_iff.mp h
  refine ⟨row, hr, ?_⟩
  split at he <;> exact he ▸ rfl

theorem find?_commit_update {db' : Store} {f : SavedAddress → SavedAddress} (hk : Kept db db')
    (hf : ∀ row, (f row).place = (data.apply row).place)
    (h : (commit db (db'.update A f)).snd.addresses.find? B = some row') :
    ∃ row, db.addresses.find? B = some row ∧
      (row'.place = row.place ∨ B = A ∧ row'.place = (data.apply row).place) := by
  let I (db₂ : Store) := db₂.addresses.find? B = some row' → ∃ row, db.addresses.find? B = some row ∧
    (row'.place = row.place ∨ B = A ∧ row'.place = (data.apply row).place)
  have unchanged : I db := fun h => ⟨row', h, .inl rfl⟩
  refine commit_preserves (I := I) unchanged (fun db₂ he h => ?_) h
  have ⟨_, _, hm⟩ := Store.update_ok he
  rw [hm, Serial.find?_modify] at h
  split at h
  case isFalse =>
    have ⟨row, hr, hp⟩ := hk B row' h
    exact ⟨row, hr, .inl hp⟩
  case isTrue hB =>
    have ⟨row₁, hr₁, he'⟩ := Option.map_eq_some_iff.mp h
    have ⟨row, hr, hp⟩ := hk A row₁ hr₁
    exact ⟨row, hB ▸ hr, .inr ⟨hB, by rw [← he', hf, place_apply hp]⟩⟩

theorem eval_findOne (db : Store) (U : UserId) (A : AddressId) :
    (∃ e, eval Stmt.exec (findOne U A) db = (.error e, db)) ∨ ∃ row,
      db.addresses.find? A = some row ∧ row.userId = U ∧ eval Stmt.exec (findOne U A) db = (.ok row, db) := by
  have hf : Stmt.exec (.find A) db = (db.addresses.find? A, db) := rfl
  rw [findOne, eval_stmt_bind, hf]
  cases hr : db.addresses.find? A
  case none => exact .inl ⟨_, rfl⟩
  case some row =>
    dsimp only
    split
    case isTrue     => exact .inl ⟨_, rfl⟩
    case isFalse ho => exact .inr ⟨row, rfl, not_not.mp ho, rfl⟩

theorem origin_moveDefault
    (h : (eval Stmt.exec (moveDefault U A data) db).snd.addresses.find? B = some row') :
    ∃ row, db.addresses.find? B = some row ∧
      (row'.place = row.place ∨ B = A ∧ row'.place = (data.apply row).place) :=
  find?_commit_update (f := fun row => { data.apply row with isDefault := true }) kept_clear
    (fun _ => rfl) h

-- A call leaves each address where it is, apart from the one that it creates or updates.
theorem origin (h : (c.apply db).addresses.find? B = some row') : Origin db B row' c := by
  cases c <;> rw [Call.apply, Call.prog, run_toCall] at h
  case create U dto geo =>
    rw [create, eval_stmt_bind] at h
    split at h
    case isTrue  => exact .kept h rfl
    case isFalse =>
      have created {db' : Store} {d : Bool} (hk : Kept db db')
          (hn : db'.addresses.next = db.addresses.next)
          (h : (db'.create ⟨U, dto.label, dto.address, (resolveCoords dto.lat dto.lng geo).fst,
            (resolveCoords dto.lat dto.lng geo).snd, d⟩).addresses.find? B = some row') :
          Origin db B row' (.create U dto geo) := by
        rw [Store.create, Serial.find?_create] at h
        split at h
        case isTrue hB =>
          obtain rfl := Option.some.inj h
          exact .created (hB.trans hn) rfl rfl
        case isFalse =>
          obtain ⟨_, hr, hp⟩ := hk B row' h
          exact .kept hr hp
      dsimp only at h
      split at h
      case isTrue  => exact created kept_clear rfl h
      case isFalse => exact created (fun _ _ hr => ⟨_, hr, rfl⟩) rfl h
  case update U A dto geo =>
    obtain ⟨_, he⟩ | ⟨existing, hr, ho, he⟩ := eval_findOne db U A
    case inl =>
      rw [update, eval_bind_of_error he] at h
      exact .kept h rfl
    case inr =>
      rw [update, eval_bind_of_ok he] at h
      obtain ⟨row, hr', hp⟩ : ∃ row, db.addresses.find? B = some row ∧ (row'.place = row.place ∨
          B = A ∧ row'.place = ((updateData existing dto geo).apply row).place) := by
        dsimp only at h
        split at h
        case isTrue  => exact origin_moveDefault h
        case isFalse => exact find?_commit_update (fun _ _ hr => ⟨_, hr, rfl⟩) (fun _ => rfl) h
      obtain hp | ⟨rfl, hp⟩ := hp
      case inl => exact .kept hr' hp
      case inr =>
        obtain rfl := Option.some.inj <| hr.symm.trans hr'
        exact .updated hr ho hp
  case setDefault U A =>
    obtain ⟨_, he⟩ | ⟨_, _, _, he⟩ := eval_findOne db U A
    case inl =>
      rw [setDefault, eval_bind_of_error he] at h
      exact .kept h rfl
    case inr =>
      rw [setDefault, eval_bind_of_ok he] at h
      obtain ⟨row, hr, hp⟩ := origin_moveDefault h
      exact .kept hr <| hp.elim id And.right
  case remove U A =>
    obtain ⟨_, he⟩ | ⟨_, _, _, he⟩ := eval_findOne db U A
    case inl =>
      rw [remove, eval_bind_of_error he] at h
      exact .kept h rfl
    case inr =>
      rw [remove, eval_bind_of_ok he] at h
      let I (db' : Store) := db'.addresses.find? B = some row' → db.addresses.find? B = some row'
      have deleted (db' : Store) (hd : db.delete A = .ok db') : I db' := fun h =>
        Table.find?_erase_eq_some (Store.delete_ok hd ▸ h)
      exact .kept (commit_preserves (I := I) id deleted h) rfl

theorem Store.after_concat : Store.after (cs ++ [c]) = c.apply (.after cs) :=
  List.foldl_append

theorem Located.concat {place : Place} (h : Located cs A place) (c : Call) :
    Located (cs ++ [c]) A place := by
  refine h.imp id fun ⟨pre, c', post, he, hl⟩ => ⟨pre, c', post ++ [c], ?_, hl⟩
  rw [he, List.append_assoc, List.cons_append]

theorem Located.of_locates {place : Place} (h : c.Locates (.after cs) A place) :
    Located (cs ++ [c]) A place :=
  .inr ⟨cs, c, [], rfl, h⟩

theorem resolveCoords_cases (lat lng : Option ℚ) (geo : Option GeoPoint) :
    (∃ x y, lat = some x ∧ lng = some y ∧ resolveCoords lat lng geo = (some x, some y)) ∨
      resolveCoords lat lng geo = (geo.map (·.lat), geo.map (·.lng)) := by
  unfold resolveCoords
  split
  case h_1 x y => exact .inl ⟨x, y, rfl, rfl, rfl⟩
  case h_2     => exact .inr rfl

-- The text that is stored after an update.
theorem address_updateData {dto : UpdateSavedAddressDto} {geo : Option GeoPoint} :
    ((updateData row dto geo).apply row).address = dto.address.getD row.address := by
  simp only [updateData, AddressData.apply]
  cases dto.address
  case none => rfl
  case some text =>
    by_cases he : text = row.address
    case pos => simp [Option.filter, he]
    case neg => simp [Option.filter, he]

-- The coordinates are those of the geocoder, or each of them is patched on its own.
theorem coords_updateData (row : SavedAddress) (dto : UpdateSavedAddressDto) (geo : Option GeoPoint) :
    let row' := (updateData row dto geo).apply row
    (∃ p, geo = some p ∧ dto.address = some row'.address ∧ row'.lat = some p.lat ∧ row'.lng = some p.lng) ∨
      (dto.address.getD row.address = row.address ∨ ¬(dto.lat = none ∨ dto.lng = none) ∨ geo = none) ∧
        row'.lat = dto.lat.getD row.lat ∧ row'.lng = dto.lng.getD row.lng := by
  intro row'
  have ha : row'.address = dto.address.getD row.address := address_updateData
  by_cases hc : (dto.address.filter (· ≠ row.address)).isSome ∧ (dto.lat = none ∨ dto.lng = none)
  case pos =>
    have ⟨text, hf⟩ := Option.isSome_iff_exists.mp hc.left
    have ht := (Option.filter_eq_some_iff.mp hf).left
    cases geo
    case none   => exact .inr ⟨.inr <| .inr rfl, by simp [row', updateData, AddressData.apply]⟩
    case some p =>
      refine .inl ⟨p, rfl, ?_, ?_⟩
      · rw [ha, ht, Option.getD_some]
      · simp only [row', updateData, AddressData.apply, if_pos hc]
        exact ⟨rfl, rfl⟩
  case neg =>
    have hp : row'.lat = dto.lat.getD row.lat ∧ row'.lng = dto.lng.getD row.lng := by
      simp only [row', updateData, AddressData.apply, if_neg hc]
      exact ⟨rfl, rfl⟩
    refine .inr ⟨?_, hp⟩
    by_cases hs : dto.lat = none ∨ dto.lng = none
    case neg => exact .inr <| .inl hs
    case pos =>
      refine .inl ?_
      cases ht : dto.address
      case none      => rfl
      case some text =>
        by_contra hn
        exact hc ⟨by simpa [ht, Option.filter] using hn, hs⟩

theorem Located.apply (h : ∀ A row, (Store.after cs).addresses.find? A = some row → Located cs A row.place)
    (hc : c.Coherent (.after cs)) (hr : (c.apply (.after cs)).addresses.find? A = some row) :
    Located (cs ++ [c]) A row.place := by
  cases origin hr
  case kept hr hp => exact hp ▸ (h A _ hr).concat c
  case created U dto geo hA ha hp =>
    cases resolveCoords_cases dto.lat dto.lng geo
    case inl hs =>
      have ⟨x, y, hx, hy, he⟩ := hs
      have ⟨hlat, hlng⟩ := Prod.mk.inj (hp.trans he)
      exact .of_locates <| .supplied hA ha.symm hlat hlng hx hy
    case inr he =>
      have ⟨hlat, hlng⟩ := Prod.mk.inj (hp.trans he)
      cases geo
      case none   => exact .inl ⟨hlat, hlng⟩
      case some p => exact .of_locates <| .geocoded hA ha.symm hlat hlng
  case updated U dto geo row₀ hf ho hp =>
    have ⟨ha, hlat, hlng⟩ := Place.mk.inj hp
    have ht : dto.address.getD row₀.address = row.address := address_updateData.symm.trans ha.symm
    obtain ⟨p, rfl, htext, hp⟩ | ⟨hg, hp⟩ := coords_updateData row₀ dto geo
    case inl =>
      exact .of_locates <|
        .regeocoded hf ho (htext.trans <| congrArg some ha.symm) (hlat.trans hp.left) (hlng.trans hp.right)
    case inr =>
      rw [hp.left] at hlat
      rw [hp.right] at hlng
      obtain ⟨hl, hn⟩ | ⟨lat, lng, hl, hn⟩ | hu := hc row₀ hf ho
      case inl     => exact .inl ⟨hlat.trans hl, hlng.trans hn⟩
      case inr.inl =>
        rw [hl] at hlat
        rw [hn] at hlng
        exact .of_locates <| .resupplied hf ho ht hlat hlng hl hn
      case inr.inr =>
        split at hu
        case isTrue hu' =>
          rw [hu.left] at hlat
          rw [hu.right] at hlng
          have hk : row.place = row₀.place := by simp [SavedAddress.place, hlat, hlng, ← ht, hu']
          exact hk ▸ (h A _ hf).concat _
        case isFalse hu' =>
          obtain hg | hg | hg := hg
          case inl     => exact absurd hg hu'
          case inr.inl => exact absurd hu.right hg
          case inr.inr => exact absurd hg <| Option.isSome_iff_ne_none.mp hu.left

theorem Located.run (h : ∀ A row, (Store.after cs).addresses.find? A = some row → Located cs A row.place)
    {cs' : List Call} (hc : Coherent (.after cs) cs')
    (hr : (Store.after (cs ++ cs')).addresses.find? A = some row) : Located (cs ++ cs') A row.place := by
  induction cs' generalizing cs
  case nil =>
    rw [List.append_nil] at hr ⊢
    exact h A row hr
  case cons c cs' ih =>
    rw [List.append_cons] at hr ⊢
    refine ih (fun A row hr => ?_) (Store.after_concat ▸ hc.right) hr
    exact Located.apply h hc.left (Store.after_concat ▸ hr)

-- After updates that are coherent, the coordinates of every address belong to its text.
theorem coordinates_located (hc : Coherent .empty cs)
    (hr : (Store.after cs).addresses.find? A = some row) : Located cs A row.place :=
  have hs : ∀ A row, (Store.after []).addresses.find? A = some row → Located [] A row.place := nofun
  Located.run hs hc hr

-- An address gets its coordinates from the geocoder, then a text with coordinates of the client.
theorem coordinates_located_moved :
    let create : Call := .create 0 ⟨"Home", "Jl X", none, none, none⟩ (some ⟨1, 2⟩)
    let update : Call := .update 0 0 ⟨none, some "Jl Y", some (some 3), some (some 4), none⟩ none
    Coherent .empty [create, update] ∧ Located [create, update] 0 ⟨"Jl Y", some 3, some 4⟩ := by
  intro create update
  have hc : Coherent .empty [create, update] :=
    ⟨trivial, fun _ _ _ => .inr <| .inl ⟨3, 4, rfl, rfl⟩, trivial⟩
  have hr : (Store.after [create, update]).addresses.find? 0 =
      some ⟨0, "Home", "Jl Y", some 3, some 4, true⟩ := by decide +kernel
  exact ⟨hc, coordinates_located hc hr⟩

-- When the geocoder does not find the new text, the coordinates of the old one stay.
theorem coordinates_not_located : ¬∀ cs A row,
    (Store.after cs).addresses.find? A = some row → Located cs A row.place := by
  intro h
  let create : Call := .create 0 ⟨"Home", "Jl X", none, none, none⟩ (some ⟨1, 2⟩)
  let update : Call := .update 0 0 ⟨none, some "Jl Y", none, none, none⟩ none
  have hr : (Store.after [create, update]).addresses.find? 0 =
      some ⟨0, "Home", "Jl Y", some 1, some 2, true⟩ := by decide +kernel
  obtain ⟨hl, _⟩ | ⟨pre, c, post, he, hl⟩ := h _ _ _ hr
  case inl => cases hl
  case inr =>
    have hc : c ∈ [create, update] := he ▸ List.mem_append_right pre List.mem_cons_self
    obtain rfl | rfl : c = create ∨ c = update := by simpa using hc
    case inl =>
      simp only [create] at hl
      cases hl
      case supplied hl _ => cases hl
      case geocoded ha _ _ => exact absurd ha (by decide)
    case inr =>
      simp only [update] at hl
      cases hl
      case resupplied hl _ => cases hl

end

end Drovery.SavedAddresses
