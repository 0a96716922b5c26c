import Drovery.Concurrency.Method
import Drovery.Data.Cache
import Drovery.Data.JsonText
import Drovery.Data.JsValue
import Drovery.Objects.Delivery
import Drovery.Objects.Promo

namespace Json

-- The longest prefix that is a decimal literal.
def parseFloat (s : String) : Numeric :=
  let cs := s.toList.dropWhile JsString.isWhite
  let (negative, cs) :=
    match cs with
    | '-' :: cs => (true, cs)
    | '+' :: cs => (false, cs)
    | cs        => (false, cs)
  if "Infinity".toList.isPrefixOf cs then
    .infinite negative
  else
    let whole := cs.takeWhile Char.isDigit
    let (fraction, rest) := fractionDigits <| cs.dropWhile Char.isDigit
    if whole = [] ∧ fraction = [] then
      .nan
    else
      let exponent := ((Numeral.readExponent rest).map Prod.fst).getD 0
      .ofNumeral <| .ofDecimal negative (Decimal.value <| whole ++ fraction)
        (exponent - fraction.length)

-- What is undefined, and what has no text, is not a number.
def toFloat (d : Nat) (v : Option Json) : Numeric :=
  ((v.bind <| text d).map parseFloat).getD .nan

namespace Numeric

def text : Numeric → String
  | nan        => "NaN"
  | infinite b => infinity b
  | finite x   => x.text

-- There is no other number in JSON.
def toJson : Numeric → Json
  | finite x => .number x
  | _        => .null

end Numeric

-- The first element of what is meant to be an array.
def head : Json → Option Json
  | array (x :: _) => some x
  | object ps      => (object ps).get "0"
  | _              => none

end Json

namespace Drovery

-- The text of a number with `f` digits behind the point.
def toFixed (f : Nat) (x : ℚ) : String :=
  let n := ⌊|x| * 10 ^ f + 1 / 2⌋.toNat
  (if x < 0 then "-" else "") ++ .ofList (Nat.toDigits 10 (n / 10 ^ f)) ++ "." ++
    .ofList (Decimal.pad f (n % 10 ^ f))

def tenths (n : Int) : Json.Numeric :=
  .ofRat (n / 10)

-- A response of a provider: nothing at all, or the status and the body, as far as it is JSON.
inductive Response
  | error
  | answered (ok : Bool) (body : Option Json)
  deriving DecidableEq

namespace Caching

open Concurrency

-- A profile as it is sent to its user.
abbrev Profile := List (String × Json)

-- Text is lower-cased as Unicode has it, the users have texts as ids, and values are converted as far
-- as the stack is deep. The weather that is made up is drawn from the sine of a seed, unless the seed
-- is not finite.
structure Params where
  depth         : Nat
  toLowerCase   : String → String
  text          : UserId → String
  injective     : Function.Injective text
  weatherApiKey : Option String
  rand          : (lat lng : Json.Numeric) → Option ℚ

-- The users in the database, and what is cached.
structure Store where
  users : Table UserId Profile
  cache : Cache String Json

inductive Stmt
  -- The commands of the cache, which have no effect while it is down.
  | get (key : String) (down : Bool)
  | set (key : String) (value : Json) (ttlSeconds : Nat) (down : Bool)
  | del (key : String) (down : Bool)
  -- The answer of a provider arrives.
  | ask (response : Response)
  | findUser (U : UserId)
  | updateUser (U : UserId) (dto : Profile)
  | createUser (U : UserId) (profile : Profile)
  -- The answer to the caller.
  | respond (value : Json)
  | tick (ms : Nat)
  deriving DecidableEq

namespace Stmt

@[reducible]
def Res : Stmt → Type
  | get ..        => Option Json
  | set ..        => Unit
  | del ..        => Unit
  | ask _         => Response
  | findUser _    => Option Profile
  | updateUser .. => Except AppError Unit
  | createUser .. => Unit
  | respond _     => Unit
  | tick _        => Unit

-- What a statement does to the cache.
def op : Stmt → Option (Cache.Op String Json)
  | set key value ttlSeconds false => some <| .set key value (ttlSeconds * 1000)
  | del key false                  => some <| .del key
  | tick ms                        => some <| .tick ms
  | _                              => none

def patch (profile dto : Profile) : Profile :=
  dto ++ profile.filter fun e => e.fst ∉ dto.map Prod.fst

def exec (x : Stmt) (db : Store) : x.Res × Store :=
  let db' := { db with cache := (x.op.map db.cache.exec).getD db.cache }
  match x with
  | get key down         => (if down then none else db.cache.get key, db')
  | set ..               => ((), db')
  | del ..               => ((), db')
  | ask response         => (response, db')
  | findUser U           => (db.users.find? U, db')
  | updateUser U dto     =>
    match db.users.find? U with
    | none   => (.error .recordNotFound, db')
    | some _ => (.ok (), { db' with users := db.users.modify U (patch · dto) })
  | createUser U profile => ((), { db' with users := (db.users.insert U profile).getD db.users })
  | respond _            => ((), db')
  | tick _               => ((), db')

@[reducible]
def sig : Signature where
  Stmt := Stmt
  Res  := Res

end Stmt

abbrev App := Method Stmt.sig AppError

abbrev App.stmt (x : Stmt) : App x.Res :=
  @Method.stmt Stmt.sig AppError x

abbrev App.tx {α : Type} (x : Stmt) (f : x.Res → Except AppError α) : App α :=
  @Method.tx Stmt.sig AppError α x f

open Caching.App (stmt tx)

-- The commands of a call that do not reach the cache.
structure Faults where
  get : Bool := false
  set : Bool := false
  del : Bool := false
  deriving DecidableEq

-- What is asked for is only kept if there is something to be kept, and a time to keep it for.
def readThrough {α : Type} (key : String) (faults : Faults) (decode : Json → Json) (ask : App α)
    (answer : α → Json) (keep : α → Option (Json × Nat)) : App Json := do
  match (← stmt <| .get key faults.get).filter fun cached => Json.truthy (some cached) with
  | some cached => pure <| decode cached
  | none        =>
    let a ← ask
    match keep a with
    | none                     => pure <| answer a
    | some (value, ttlSeconds) =>
      stmt <| .set key value ttlSeconds faults.set
      pure <| answer a

namespace GeoService

abbrev geoTtl : Nat := 30 * 24 * 3600
abbrev geoMissTtl : Nat := 3600

structure GeocodeResult where
  lat : JsNumber
  lng : JsNumber
  deriving DecidableEq

inductive GeocodeOutcome
  | found (result : GeocodeResult)
  | notFound
  | failed
  deriving DecidableEq

def fetchGeocode (P : Params) : Response → GeocodeOutcome
  | .answered true (some (.array []))            => .notFound
  | .answered true (some (.array (result :: _))) =>
    match Json.toFloat P.depth <| result.get "lat", Json.toFloat P.depth <| result.get "lon" with
    | .finite lat, .finite lng => .found { lat, lng }
    | _, _                     => .failed
  | _                                            => .failed

def GeocodeResult.toJson (result : GeocodeResult) : Json :=
  .object [("lat", .number result.lat), ("lng", .number result.lng)]

def GeocodeOutcome.answer : GeocodeOutcome → Json
  | found result => result.toJson
  | _            => .null

def GeocodeOutcome.keep : GeocodeOutcome → Option (Json × Nat)
  | found result => some (result.toJson, geoTtl)
  | notFound     => some (.object [("miss", .bool true)], geoMissTtl)
  | failed       => none

-- Of a hit, the coordinates are read one by one.
def decode (cached : Json) : Json :=
  if Json.truthy (cached.get "miss") then
    .null
  else
    .object <|
      ((cached.get "lat").map fun lat => ("lat", lat)).toList ++
      ((cached.get "lng").map fun lng => ("lng", lng)).toList

def forwardKey (P : Params) (query : String) : String :=
  "geo:fwd:" ++ P.toLowerCase (.ofList <| JsString.trim query.toList)

def geocode (P : Params) (query : String) (response : Response) (faults : Faults) : App Json :=
  readThrough (forwardKey P query) faults decode (stmt <| .ask response)
    (fun response => (fetchGeocode P response).answer) fun response => (fetchGeocode P response).keep

-- An address that is missing is `null`.
def fetchReverse : Response → Json
  | .answered true (some body) => (body.get "display_name").getD .null
  | _                          => .null

def reverseKey (lat lng : ℚ) : String :=
  "geo:rev:" ++ toFixed 4 lat ++ "," ++ toFixed 4 lng

def keepAddress (address : Json) : Json × Nat :=
  (.object [("address", address)], if Json.truthy (some address) then geoTtl else geoMissTtl)

def reverseGeocode (lat lng : ℚ) (response : Response) (faults : Faults) : App Json :=
  readThrough (reverseKey lat lng) faults (fun cached => (cached.get "address").getD .null)
    (stmt <| .ask response) fetchReverse
    fun response => some <| keepAddress <| fetchReverse response

end GeoService

namespace WeatherService

abbrev weatherTtl : Nat := 5 * 60
abbrev maxWindKph : ℚ := 40

structure WeatherConditions where
  windKph   : Json.Numeric
  condition : String
  flyable   : Bool
  source    : String

def WeatherConditions.toJson (w : WeatherConditions) : Json :=
  .object [("windKph", w.windKph.toJson), ("condition", .string w.condition),
    ("flyable", .bool w.flyable), ("source", .string w.source)]

def isFlyable (windKph : ℚ) (condition : String) : Bool :=
  windKph ≤ maxWindKph ∧ condition ≠ "storm"

def failOpen : WeatherConditions where
  windKph   := .finite .zero
  condition := "unknown"
  flyable   := true
  source    := "unknown"

def mapCondition (P : Params) (main : String) : String :=
  match P.toLowerCase main with
  | "clear"        => "clear"
  | "clouds"       => "cloudy"
  | "rain"         => "rain"
  | "drizzle"      => "rain"
  | "thunderstorm" => "storm"
  | _              => "unknown"

def mockMode (P : Params) : Bool :=
  P.weatherApiKey.getD "" = ""

-- The weather that goes with a number between `0` and `1`.
def mockWind (rand : ℚ) : String × Int :=
  if rand < 78 / 100 then
    ("clear", 5 + ⌊rand / (78 / 100) * 15⌋)
  else if rand < 90 / 100 then
    ("cloudy", 15 + ⌊(rand - 78 / 100) / (12 / 100) * 18⌋)
  else if rand < 96 / 100 then
    ("rain", 30 + ⌊(rand - 90 / 100) / (6 / 100) * 18⌋)
  else
    ("storm", 50 + ⌊(rand - 96 / 100) / (4 / 100) * 30⌋)

def mockConditions (P : Params) (lat lng : Json.Numeric) : WeatherConditions :=
  match P.rand lat lng with
  | none      => { windKph := .finite .zero, condition := "unknown", flyable := true, source := "mock" }
  | some rand =>
    let (condition, windKph) := mockWind rand
    { windKph   := tenths <| windKph * 10
      condition
      flyable   := isFlyable windKph condition
      source    := "mock" }

-- What the weather is called, unless that is no text. Then nothing can be said about the weather.
def mainOf (data : Json) : Option String :=
  match (((data.get "weather").bind Json.head).bind (·.get "main")) with
  | none            => some ""
  | some .null      => some ""
  | some (.string s) => some s
  | some _          => none

def fetchConditions (P : Params) : Response → WeatherConditions
  | .answered true (some data) =>
    match (data.get "wind").bind (·.get "speed"), mainOf data with
    | some (.number windMs), some main =>
      let windKph := windMs.toRat * (36 / 10)
      let condition := mapCondition P main
      { windKph   := tenths <| round <| windKph * 10
        condition
        flyable   := isFlyable windKph condition
        source    := "openweather" }
    | _, _ => failOpen
  | _ => failOpen

-- The middle of the cell.
def cell (x : ℚ) : Json.Numeric :=
  tenths <| round <| x * 10

def weatherKey (lat lng : ℚ) : String :=
  "weather:" ++ (cell lat).text ++ "," ++ (cell lng).text

-- Without a key for the provider the weather is made up.
def findConditions (P : Params) (lat lng : Json.Numeric) (response : Response) :
    App WeatherConditions :=
  if mockMode P then
    pure <| mockConditions P lat lng
  else do
    let response ← stmt <| .ask response
    pure <| fetchConditions P response

def getConditions (P : Params) (lat lng : ℚ) (response : Response) (faults : Faults) : App Json :=
  readThrough (weatherKey lat lng) faults id (findConditions P (cell lat) (cell lng) response)
    WeatherConditions.toJson fun conditions => some (conditions.toJson, weatherTtl)

end WeatherService

namespace UsersService

abbrev profileTtl : Nat := 60

def profileKey (P : Params) (U : UserId) : String :=
  "user:profile:" ++ P.text U

def findProfile (U : UserId) : App Profile :=
  tx (.findUser U) fun user => user.elim (.error <| .notFound "error.user.not_found") .ok

def getProfile (P : Params) (U : UserId) (faults : Faults) : App Json :=
  readThrough (profileKey P U) faults id (findProfile U) .object fun user =>
    some (.object user, profileTtl)

def updateProfile (P : Params) (U : UserId) (dto : Profile) (fault : Outcome AppError)
    (faults : Faults) : App Unit := do
  let _ ← getProfile P U faults
  (tx (.updateUser U dto) id).attempt fault
  stmt <| .del (profileKey P U) faults.del

end UsersService

-- The calls of all instances. Other writes to a user leave the cached profile as it is, and an
-- entry of the cache may be evicted at any time.
inductive Call
  | geocode (query : String) (response : Response) (faults : Faults)
  | reverseGeocode (lat lng : ℚ) (response : Response) (faults : Faults)
  | getConditions (lat lng : ℚ) (response : Response) (faults : Faults)
  | getProfile (U : UserId) (faults : Faults)
  | updateProfile (U : UserId) (dto : Profile) (fault : Outcome AppError) (faults : Faults)
  | createUser (U : UserId) (profile : Profile)
  | changeUser (U : UserId) (dto : Profile)
  | evict (key : String)
  | tick (ms : Nat)
  deriving DecidableEq

def respond (p : App Json) : App Unit :=
  p >>= fun value => stmt <| .respond value

def Call.prog (P : Params) : Call → Prog Stmt.sig Unit
  | geocode query response faults          =>
    (respond <| GeoService.geocode P query response faults).toCall
  | reverseGeocode lat lng response faults =>
    (respond <| GeoService.reverseGeocode lat lng response faults).toCall
  | getConditions lat lng response faults  =>
    (respond <| WeatherService.getConditions P lat lng response faults).toCall
  | getProfile U faults                    => (respond <| UsersService.getProfile P U faults).toCall
  | updateProfile U dto fault faults       =>
    (UsersService.updateProfile P U dto fault faults).toCall
  | createUser U profile                   => (stmt <| .createUser U profile).toCall
  | changeUser U dto                       => (tx (.updateUser U dto) id).toCall
  | evict key                              => (stmt <| .del key false).toCall
  | tick ms                                => (stmt <| .tick ms).toCall

def system (P : Params) : System Stmt.sig Store Call where
  exec x   := x.exec
  prog _ c := c.prog P

def Store.Initial (db : Store) : Prop :=
  db.cache = {}

end Caching

end Drovery
