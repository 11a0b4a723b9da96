import MFutures.Value

namespace MFutures
open Value

/-- A `char` promotes to the integer of its (signed) code when it is assigned. -/
def ofChar (c : Char) : Value :=
  .intValue (if c.toNat < 128 then c.toNat else c.toNat - 256)

structure CThostFtdcRspInfoField where
  errorID : Int
  errorMsg : String
  deriving Inhabited

/-- The records of CTP, with the fields the bridge reads. A character array is
the text before its terminator. -/
structure CThostFtdcRspUserLoginField where
  (tradingDay loginTime brokerID userID systemName : String)
  (frontID sessionID : Int)
  (maxOrderRef ineTime shfeTime dceTime czceTime ffexTime : String)
  deriving Inhabited

/-- The source assigns `INETime` three times, each time the same field. -/
def CThostFtdcRspUserLoginField.rspArgs (p : CThostFtdcRspUserLoginField) : Value :=
  .objectValue [
    ("TradingDay", .stringValue p.tradingDay), ("LoginTime", .stringValue p.loginTime),
    ("BrokerID", .stringValue p.brokerID), ("UserID", .stringValue p.userID),
    ("SystemName", .stringValue p.systemName), ("FrontID", .intValue p.frontID),
    ("SessionID", .intValue p.sessionID), ("MaxOrderRef", .stringValue p.maxOrderRef),
    ("INETime", .stringValue p.ineTime), ("SHFETime", .stringValue p.shfeTime),
    ("DCETime", .stringValue p.dceTime), ("CZCETime", .stringValue p.czceTime),
    ("FFEXTime", .stringValue p.ffexTime)]

structure CThostFtdcSettlementInfoConfirmField where
  (brokerID investorID confirmDate confirmTime : String)
  deriving Inhabited

def CThostFtdcSettlementInfoConfirmField.rspArgs (p : CThostFtdcSettlementInfoConfirmField) : Value :=
  .objectValue [
    ("BrokerID", .stringValue p.brokerID), ("InvestorID", .stringValue p.investorID),
    ("ConfirmDate", .stringValue p.confirmDate), ("ConfirmTime", .stringValue p.confirmTime)]

structure CThostFtdcInstrumentField where
  (instrumentID exchangeID instrumentName exchangeInstID productID : String)
  productClass : Char
  (deliveryYear deliveryMonth maxMarketOrderVolume minMarketOrderVolume maxLimitOrderVolume
   minLimitOrderVolume volumeMultiple : Int)
  priceTick : Double
  (createDate openDate expireDate startDelivDate endDelivDate : String)
  instLifePhase : Char
  isTrading : Int
  (positionType positionDateType : Char)
  (longMarginRatio shortMarginRatio : Double)
  maxMarginSideAlgorithm : Char
  underlyingInstrID : String
  strikePrice : Double
  optionsType : Char
  underlyingMultiple : Double
  combinationType : Char
  deriving Inhabited

def CThostFtdcInstrumentField.rspArgs (gbktoutf8 : String → String)
    (p : CThostFtdcInstrumentField) : Value :=
  .objectValue [
    ("InstrumentID", .stringValue p.instrumentID), ("ExchangeID", .stringValue p.exchangeID),
    ("InstrumentName", .stringValue (gbktoutf8 p.instrumentName)),
    ("ExchangeInstID", .stringValue p.exchangeInstID), ("ProductID", .stringValue p.productID),
    ("ProductClass", ofChar p.productClass), ("DeliveryYear", .intValue p.deliveryYear),
    ("DeliveryMonth", .intValue p.deliveryMonth),
    ("MaxMarketOrderVolume", .intValue p.maxMarketOrderVolume),
    ("MinMarketOrderVolume", .intValue p.minMarketOrderVolume),
    ("MaxLimitOrderVolume", .intValue p.maxLimitOrderVolume),
    ("MinLimitOrderVolume", .intValue p.minLimitOrderVolume),
    ("VolumeMultiple", .intValue p.volumeMultiple), ("PriceTick", .realValue p.priceTick),
    ("CreateDate", .stringValue p.createDate), ("OpenDate", .stringValue p.openDate),
    ("ExpireDate", .stringValue p.expireDate), ("StartDelivDate", .stringValue p.startDelivDate),
    ("EndDelivDate", .stringValue p.endDelivDate), ("InstLifePhase", ofChar p.instLifePhase),
    ("IsTrading", .intValue p.isTrading), ("PositionType", ofChar p.positionType),
    ("PositionDateType", ofChar p.positionDateType),
    ("LongMarginRatio", .realValue p.longMarginRatio),
    ("ShortMarginRatio", .realValue p.shortMarginRatio),
    ("MaxMarginSideAlgorithm", ofChar p.maxMarginSideAlgorithm),
    ("UnderlyingInstrID", .stringValue p.underlyingInstrID),
    ("StrikePrice", .realValue p.strikePrice), ("OptionsType", ofChar p.optionsType),
    ("UnderlyingMultiple", .realValue p.underlyingMultiple),
    ("CombinationType", ofChar p.combinationType)]

structure CThostFtdcTradingAccountField where
  (brokerID accountID : String)
  (preMortgage preCredit preDeposit preBalance preMargin interestBase interest deposit withdraw
   frozenMargin frozenCash frozenCommission currMargin cashIn commission closeProfit
   positionProfit balance available withdrawQuota reserve : Double)
  tradingDay : String
  settlementID : Int
  (credit mortgage exchangeMargin deliveryMargin exchangeDeliveryMargin reserveBalance : Double)
  currencyID : String
  (preFundMortgageIn preFundMortgageOut fundMortgageAvailable mortgageableFund
   specProductMargin specProductCommission specProductFrozenCommission
   specProductPositionProfit specProductCloseProfit specProductPositionProfitByAlg
   specProductExchangeMargin : Double)
  deriving Inhabited

def CThostFtdcTradingAccountField.rspArgs (p : CThostFtdcTradingAccountField) : Value :=
  .objectValue [
    ("BrokerID", .stringValue p.brokerID), ("AccountID", .stringValue p.accountID),
    ("PreMortgage", .realValue p.preMortgage), ("PreCredit", .realValue p.preCredit),
    ("PreDeposit", .realValue p.preDeposit), ("PreBalance", .realValue p.preBalance),
    ("PreMargin", .realValue p.preMargin), ("InterestBase", .realValue p.interestBase),
    ("Interest", .realValue p.interest), ("Deposit", .realValue p.deposit),
    ("Withdraw", .realValue p.withdraw), ("FrozenMargin", .realValue p.frozenMargin),
    ("FrozenCash", .realValue p.frozenCash), ("FrozenCommission", .realValue p.frozenCommission),
    ("CurrMargin", .realValue p.currMargin), ("CashIn", .realValue p.cashIn),
    ("Commission", .realValue p.commission), ("CloseProfit", .realValue p.closeProfit),
    ("PositionProfit", .realValue p.positionProfit), ("Balance", .realValue p.balance),
    ("Available", .realValue p.available), ("WithdrawQuota", .realValue p.withdrawQuota),
    ("Reserve", .realValue p.reserve), ("TradingDay", .stringValue p.tradingDay),
    ("SettlementID", .intValue p.settlementID), ("Credit", .realValue p.credit),
    ("Mortgage", .realValue p.mortgage), ("ExchangeMargin", .realValue p.exchangeMargin),
    ("DeliveryMargin", .realValue p.deliveryMargin),
    ("ExchangeDeliveryMargin", .realValue p.exchangeDeliveryMargin),
    ("ReserveBalance", .realValue p.reserveBalance), ("CurrencyID", .stringValue p.currencyID),
    ("PreFundMortgageIn", .realValue p.preFundMortgageIn),
    ("PreFundMortgageOut", .realValue p.preFundMortgageOut),
    ("FundMortgageAvailable", .realValue p.fundMortgageAvailable),
    ("MortgageableFund", .realValue p.mortgageableFund),
    ("SpecProductMargin", .realValue p.specProductMargin),
    ("SpecProductCommission", .realValue p.specProductCommission),
    ("SpecProductFrozenCommission", .realValue p.specProductFrozenCommission),
    ("SpecProductPositionProfit", .realValue p.specProductPositionProfit),
    ("SpecProductCloseProfit", .realValue p.specProductCloseProfit),
    ("SpecProductPositionProfitByAlg", .realValue p.specProductPositionProfitByAlg),
    ("SpecProductExchangeMargin", .realValue p.specProductExchangeMargin)]

structure CThostFtdcInvestorPositionField where
  (instrumentID brokerID investorID : String)
  (posiDirection hedgeFlag positionDate : Char)
  (ydPosition position longFrozen shortFrozen : Int)
  (longFrozenAmount shortFrozenAmount : Double)
  (openVolume closeVolume : Int)
  (openAmount closeAmount positionCost preMargin useMargin frozenMargin frozenCash
   frozenCommission cashIn commission closeProfit positionProfit preSettlementPrice
   settlementPrice : Double)
  tradingDay : String
  settlementID : Int
  (openCost exchangeMargin : Double)
  (combPosition combLongFrozen combShortFrozen : Int)
  (closeProfitByDate closeProfitByTrade : Double)
  todayPosition : Int
  (marginRateByMoney marginRateByVolume : Double)
  strikeFrozen : Int
  strikeFrozenAmount : Double
  abandonFrozen : Int
  deriving Inhabited

def CThostFtdcInvestorPositionField.rspArgs (p : CThostFtdcInvestorPositionField) : Value :=
  .objectValue [
    ("InstrumentID", .stringValue p.instrumentID), ("BrokerID", .stringValue p.brokerID),
    ("InvestorID", .stringValue p.investorID), ("PosiDirection", ofChar p.posiDirection),
    ("HedgeFlag", ofChar p.hedgeFlag), ("PositionDate", ofChar p.positionDate),
    ("YdPosition", .intValue p.ydPosition), ("Position", .intValue p.position),
    ("LongFrozen", .intValue p.longFrozen), ("ShortFrozen", .intValue p.shortFrozen),
    ("LongFrozenAmount", .realValue p.longFrozenAmount),
    ("ShortFrozenAmount", .realValue p.shortFrozenAmount), ("OpenVolume", .intValue p.openVolume),
    ("CloseVolume", .intValue p.closeVolume), ("OpenAmount", .realValue p.openAmount),
    ("CloseAmount", .realValue p.closeAmount), ("PositionCost", .realValue p.positionCost),
    ("PreMargin", .realValue p.preMargin), ("UseMargin", .realValue p.useMargin),
    ("FrozenMargin", .realValue p.frozenMargin), ("FrozenCash", .realValue p.frozenCash),
    ("FrozenCommission", .realValue p.frozenCommission), ("CashIn", .realValue p.cashIn),
    ("Commission", .realValue p.commission), ("CloseProfit", .realValue p.closeProfit),
    ("PositionProfit", .realValue p.positionProfit),
    ("PreSettlementPrice", .realValue p.preSettlementPrice),
    ("SettlementPrice", .realValue p.settlementPrice), ("TradingDay", .stringValue p.tradingDay),
    ("SettlementID", .intValue p.settlementID), ("OpenCost", .realValue p.openCost),
    ("ExchangeMargin", .realValue p.exchangeMargin), ("CombPosition", .intValue p.combPosition),
    ("CombLongFrozen", .intValue p.combLongFrozen),
    ("CombShortFrozen", .intValue p.combShortFrozen),
    ("CloseProfitByDate", .realValue p.closeProfitByDate),
    ("CloseProfitByTrade", .realValue p.closeProfitByTrade),
    ("TodayPosition", .intValue p.todayPosition),
    ("MarginRateByMoney", .realValue p.marginRateByMoney),
    ("MarginRateByVolume", .realValue p.marginRateByVolume),
    ("StrikeFrozen", .intValue p.strikeFrozen),
    ("StrikeFrozenAmount", .realValue p.strikeFrozenAmount),
    ("AbandonFrozen", .intValue p.abandonFrozen)]

/-- An order as CTP reports it. `OrderRef`, `FrontID`, `SessionID` and
`InstrumentID` identify it; `OnRtnOrder` does not read the last. -/
structure CThostFtdcOrderField where
  (orderRef instrumentID : String)
  requestID : Int
  (orderLocalID exchangeID participantID clientID exchangeInstID traderID : String)
  installID : Int
  orderSubmitStatus : Char
  notifySequence : Int
  tradingDay : String
  settlementID : Int
  orderSysID : String
  (orderSource orderStatus orderType : Char)
  (volumeTraded volumeTotal : Int)
  (insertDate insertTime activeTime suspendTime updateTime cancelTime activeTraderID
   clearingPartID : String)
  (sequenceNo frontID sessionID : Int)
  (userProductInfo statusMsg : String)
  userForceClose : Int
  activeUserID : String
  brokerOrderSeq : Int
  relativeOrderSysID : String
  (zceTotalTradedVolume isSwapOrder : Int)
  (branchID investUnitID accountID currencyID ipAddress macAddress : String)
  deriving Inhabited

def CThostFtdcOrderField.rspArgs (gbktoutf8 : String → String) (p : CThostFtdcOrderField) : Value :=
  .objectValue [
    ("OrderRef", .stringValue p.orderRef), ("RequestID", .intValue p.requestID),
    ("OrderLocalID", .stringValue p.orderLocalID), ("ExchangeID", .stringValue p.exchangeID),
    ("ParticipantID", .stringValue p.participantID), ("ClientID", .stringValue p.clientID),
    ("ExchangeInstID", .stringValue p.exchangeInstID), ("TraderID", .stringValue p.traderID),
    ("InstallID", .intValue p.installID), ("OrderSubmitStatus", ofChar p.orderSubmitStatus),
    ("NotifySequence", .intValue p.notifySequence), ("TradingDay", .stringValue p.tradingDay),
    ("SettlementID", .intValue p.settlementID), ("OrderSysID", .stringValue p.orderSysID),
    ("OrderSource", ofChar p.orderSource), ("OrderStatus", ofChar p.orderStatus),
    ("OrderType", ofChar p.orderType), ("VolumeTraded", .intValue p.volumeTraded),
    ("VolumeTotal", .intValue p.volumeTotal), ("InsertDate", .stringValue p.insertDate),
    ("InsertTime", .stringValue p.insertTime), ("ActiveTime", .stringValue p.activeTime),
    ("SuspendTime", .stringValue p.suspendTime), ("UpdateTime", .stringValue p.updateTime),
    ("CancelTime", .stringValue p.cancelTime), ("ActiveTraderID", .stringValue p.activeTraderID),
    ("ClearingPartID", .stringValue p.clearingPartID), ("SequenceNo", .intValue p.sequenceNo),
    ("FrontID", .intValue p.frontID), ("SessionID", .intValue p.sessionID),
    ("UserProductInfo", .stringValue p.userProductInfo),
    ("StatusMsg", .stringValue (gbktoutf8 p.statusMsg)),
    ("UserForceClose", .intValue p.userForceClose), ("ActiveUserID", .stringValue p.activeUserID),
    ("BrokerOrderSeq", .intValue p.brokerOrderSeq),
    ("RelativeOrderSysID", .stringValue p.relativeOrderSysID),
    ("ZCETotalTradedVolume", .intValue p.zceTotalTradedVolume),
    ("IsSwapOrder", .intValue p.isSwapOrder), ("BranchID", .stringValue p.branchID),
    ("InvestUnitID", .stringValue p.investUnitID), ("AccountID", .stringValue p.accountID),
    ("CurrencyID", .stringValue p.currencyID), ("IPAddress", .stringValue p.ipAddress),
    ("MacAddress", .stringValue p.macAddress)]

structure CThostFtdcTradeField where
  (brokerID investorID instrumentID orderRef userID tradeID : String)
  direction : Char
  (orderSysID participantID clientID : String)
  tradingRole : Char
  exchangeInstID : String
  (offsetFlag hedgeFlag : Char)
  price : Double
  volume : Int
  (tradeDate tradeTime : String)
  (tradeType priceSource : Char)
  (traderID orderLocalID clearingPartID businessUnit : String)
  sequenceNo : Int
  tradingDay : String
  (settlementID brokerOrderSeq : Int)
  tradeSource : Char
  exchangeID : String
  deriving Inhabited

def CThostFtdcTradeField.rspArgs (p : CThostFtdcTradeField) : Value :=
  .objectValue [
    ("BrokerID", .stringValue p.brokerID), ("InvestorID", .stringValue p.investorID),
    ("InstrumentID", .stringValue p.instrumentID), ("OrderRef", .stringValue p.orderRef),
    ("UserID", .stringValue p.userID), ("TradeID", .stringValue p.tradeID),
    ("Direction", ofChar p.direction), ("OrderSysID", .stringValue p.orderSysID),
    ("ParticipantID", .stringValue p.participantID), ("ClientID", .stringValue p.clientID),
    ("TradingRole", ofChar p.tradingRole), ("ExchangeInstID", .stringValue p.exchangeInstID),
    ("OffsetFlag", ofChar p.offsetFlag), ("HedgeFlag", ofChar p.hedgeFlag),
    ("Price", .realValue p.price), ("Volume", .intValue p.volume),
    ("TradeDate", .stringValue p.tradeDate), ("TradeTime", .stringValue p.tradeTime),
    ("TradeType", ofChar p.tradeType), ("PriceSource", ofChar p.priceSource),
    ("TraderID", .stringValue p.traderID), ("OrderLocalID", .stringValue p.orderLocalID),
    ("ClearingPartID", .stringValue p.clearingPartID),
    ("BusinessUnit", .stringValue p.businessUnit), ("SequenceNo", .intValue p.sequenceNo),
    ("TradingDay", .stringValue p.tradingDay), ("SettlementID", .intValue p.settlementID),
    ("BrokerOrderSeq", .intValue p.brokerOrderSeq), ("TradeSource", ofChar p.tradeSource),
    ("ExchangeID", .stringValue p.exchangeID)]

/-- CTP fills prices it does not have with the largest double. -/
def filterDouble (a : Double) : Double := if a.isHuge then .ofInt (-1) else a

structure CThostFtdcDepthMarketDataField where
  (tradingDay instrumentID exchangeID exchangeInstID : String)
  (lastPrice preSettlementPrice preClosePrice preOpenInterest openPrice highestPrice
   lowestPrice : Double)
  volume : Int
  (turnover openInterest closePrice settlementPrice upperLimitPrice lowerLimitPrice preDelta
   currDelta : Double)
  updateTime : String
  updateMillisec : Int
  bidPrice1 : Double
  bidVolume1 : Int
  askPrice1 : Double
  askVolume1 : Int
  bidPrice2 : Double
  bidVolume2 : Int
  askPrice2 : Double
  askVolume2 : Int
  bidPrice3 : Double
  bidVolume3 : Int
  askPrice3 : Double
  askVolume3 : Int
  bidPrice4 : Double
  bidVolume4 : Int
  askPrice4 : Double
  askVolume4 : Int
  bidPrice5 : Double
  bidVolume5 : Int
  askPrice5 : Double
  askVolume5 : Int
  averagePrice : Double
  actionDay : String
  deriving Inhabited

def CThostFtdcDepthMarketDataField.rspArgs (investorID : String)
    (p : CThostFtdcDepthMarketDataField) : Value :=
  .objectValue [
    ("INVESTORID", .stringValue investorID), ("TradingDay", .stringValue p.tradingDay),
    ("InstrumentID", .stringValue p.instrumentID), ("ExchangeID", .stringValue p.exchangeID),
    ("ExchangeInstID", .stringValue p.exchangeInstID),
    ("LastPrice", .realValue (filterDouble p.lastPrice)),
    ("PreSettlementPrice", .realValue (filterDouble p.preSettlementPrice)),
    ("PreClosePrice", .realValue (filterDouble p.preClosePrice)),
    ("PreOpenInterest", .realValue (filterDouble p.preOpenInterest)),
    ("OpenPrice", .realValue (filterDouble p.openPrice)),
    ("HighestPrice", .realValue (filterDouble p.highestPrice)),
    ("LowestPrice", .realValue (filterDouble p.lowestPrice)), ("Volume", .intValue p.volume),
    ("Turnover", .realValue (filterDouble p.turnover)),
    ("OpenInterest", .realValue (filterDouble p.openInterest)),
    ("ClosePrice", .realValue (filterDouble p.closePrice)),
    ("SettlementPrice", .realValue (filterDouble p.settlementPrice)),
    ("UpperLimitPrice", .realValue (filterDouble p.upperLimitPrice)),
    ("LowerLimitPrice", .realValue (filterDouble p.lowerLimitPrice)),
    ("PreDelta", .realValue (filterDouble p.preDelta)),
    ("CurrDelta", .realValue (filterDouble p.currDelta)),
    ("UpdateTime", .stringValue p.updateTime), ("UpdateMillisec", .intValue p.updateMillisec),
    ("BidPrice1", .realValue (filterDouble p.bidPrice1)), ("BidVolume1", .intValue p.bidVolume1),
    ("AskPrice1", .realValue (filterDouble p.askPrice1)), ("AskVolume1", .intValue p.askVolume1),
    ("BidPrice2", .realValue (filterDouble p.bidPrice2)), ("BidVolume2", .intValue p.bidVolume2),
    ("AskPrice2", .realValue (filterDouble p.askPrice2)), ("AskVolume2", .intValue p.askVolume2),
    ("BidPrice3", .realValue (filterDouble p.bidPrice3)), ("BidVolume3", .intValue p.bidVolume3),
    ("AskPrice3", .realValue (filterDouble p.askPrice3)), ("AskVolume3", .intValue p.askVolume3),
    ("BidPrice4", .realValue (filterDouble p.bidPrice4)), ("BidVolume4", .intValue p.bidVolume4),
    ("AskPrice4", .realValue (filterDouble p.askPrice4)), ("AskVolume4", .intValue p.askVolume4),
    ("BidPrice5", .realValue (filterDouble p.bidPrice5)), ("BidVolume5", .intValue p.bidVolume5),
    ("AskPrice5", .realValue (filterDouble p.askPrice5)), ("AskVolume5", .intValue p.askVolume5),
    ("AveragePrice", .realValue (filterDouble p.averagePrice)),
    ("ActionDay", .stringValue p.actionDay)]

end MFutures
