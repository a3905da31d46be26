import StockQuant.Text

namespace StockQuant.KisContract

open StockQuant

def mockHostPrefix : String := "https://openapivts"

def isPaperHost (baseUrl : String) : Bool :=
  Text.startsWith mockHostPrefix (Text.lower (Text.rstripChar '/' (Text.strip baseUrl)))

/-- A transaction id for the mock host and the one for the live host. -/
structure TrPair where
  paper : String
  live : String

def pickTr (tr : TrPair) (baseUrl : String) : String :=
  if isPaperHost baseUrl then tr.paper else tr.live

namespace DomesticStockPaths

def orderCash : String := "/uapi/domestic-stock/v1/trading/order-cash"
def hashkey : String := "/uapi/hashkey"

end DomesticStockPaths

namespace DomesticTrIds

def buy : TrPair := ⟨"VTTC0802U", "TTTC0802U"⟩
def sell : TrPair := ⟨"VTTC0801U", "TTTC0801U"⟩

end DomesticTrIds

namespace OverseasStockPaths

def order : String := "/uapi/overseas-stock/v1/trading/order"

end OverseasStockPaths

namespace OverseasTrIds

def usBuy : TrPair := ⟨"VTTT1002U", "TTTT1002U"⟩
def usSell : TrPair := ⟨"VTTT1006U", "TTTT1006U"⟩

end OverseasTrIds

end StockQuant.KisContract
