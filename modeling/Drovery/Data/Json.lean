import Drovery.Data.JsNumber

-- JSON values, and the infinities as which numerals beyond all numbers are read. An object lists its
-- properties in their order.
inductive Json
  | null
  | bool (b : Bool)
  | number (x : JsNumber)
  | infinite (negative : Bool)
  | string (s : String)
  | array (xs : List Json)
  | object (ps : List (String × Json))
