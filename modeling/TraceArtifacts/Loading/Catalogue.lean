/-!
# Standard data sets

Data sets that come with a file of delimited text: their tables, the columns of each, the cells that are inserted, and the shares of
their parts.
-/

namespace TraceArtifacts.Loading

structure StandardSet where
  /-- Its tables: all rows, then the parts. -/
  tables : List String
  columns : String
  inserts : String
  file : String
  train : Float := 0.5
  valid : Float := 0.4
  test : Float := 0.1
  forcible : Bool := true
deriving Inhabited

def spaced (indent : Nat) (lines : List String) : String :=
  String.intercalate ("".pushn ' ' indent) lines

namespace StandardSet

def bank : StandardSet where
  tables := ["DBM2_RFULL_TBL", "DBM2_RTRAINING_TBL", "DBM2_RVALIDATION_TBL", "DBM2_RTEST_TBL"]
  columns := spaced 16 ["( ", "ID INTEGER generated by default as identity,", "AGE INTEGER,",
    "JOB VARCHAR(256),", "MARITAL VARCHAR(100),", "EDUCATION VARCHAR(256),",
    "DBM_DEFAULT VARCHAR(100),", "HOUSING VARCHAR(100),", "LOAN VARCHAR(100),",
    "CONTACT VARCHAR(100),", "DBM_MONTH VARCHAR(100),", "DAY_OF_WEEK VARCHAR(100),",
    "DURATION DOUBLE,", "CAMPAIGN INTEGER,", "PDAYS INTEGER,", "PREVIOUS INTEGER,",
    "POUTCOME VARCHAR(100),", "EMP_VAR_RATE DOUBLE,", "CONS_PRICE_IDX DOUBLE,",
    "CONS_CONF_IDX DOUBLE,", "EURIBOR3M DOUBLE,", "NREMPLOYED INTEGER,", "LABEL VARCHAR(10)", ")"]
  inserts := spaced 20 ["(\"ID\", \"AGE\", \"JOB\", \"MARITAL\", \"EDUCATION\",",
    "\"DBM_DEFAULT\", \"HOUSING\", \"LOAN\", \"CONTACT\", \"DBM_MONTH\", \"DAY_OF_WEEK\", ",
    "\"DURATION\", \"CAMPAIGN\", \"PDAYS\", \"PREVIOUS\", \"POUTCOME\", ",
    "\"EMP_VAR_RATE\", \"CONS_PRICE_IDX\", \"CONS_CONF_IDX\", \"EURIBOR3M\", ",
    "\"NREMPLOYED\", \"LABEL\") ",
    "VALUES (?, ?, ?, ?, ?, ?, ?, ?, ?, ?, ?, ?, ?, ?, ?, ?, ?, ?, ?, ?, ?, ?)"]
  file := "../datasets/bank-additional-full.csv"

def titanic : StandardSet where
  tables := ["TITANIC_FULL_TBL", "TITANIC_TRAIN_TBL", "TITANIC_VALIDATION_TBL",
    "TITANIC_TEST_TBL"]
  columns := spaced 16 ["( ", "PASSENGER_ID INTEGER,", "PCLASS INTEGER,", "NAME NVARCHAR(128),",
    "SEX NVARCHAR(6),", "AGE DOUBLE,", "SIBSP INTEGER,", "PARCH INTEGER,", "TICKET NVARCHAR(18),",
    "FARE DOUBLE,", "CABIN NVARCHAR(15),", "EMBARKED NVARCHAR(1),", "SURVIVED INTEGER", ")"]
  inserts := spaced 20 ["(\"PASSENGER_ID\", \"PCLASS\", \"NAME\", \"SEX\", \"AGE\",",
    "\"SIBSP\", \"PARCH\", \"TICKET\", \"FARE\", \"CABIN\", \"EMBARKED\",", "\"SURVIVED\") ",
    "VALUES (?, ?, ?, ?, ?, ?, ?, ?, ?, ?, ?, ?)"]
  file := "../datasets/titanic-full.csv"

def walmart : StandardSet where
  tables := ["WALMART_TRAIN_TBL"]
  columns := spaced 16 ["( ", "ITEM_IDENTIFIER NVARCHAR(10),", "ITEM_WEIGHT DOUBLE,",
    "ITEM_FAT_CONTENT NVARCHAR(10),", "ITEM_VISIBILITY  DOUBLE,", "ITEM_TYPE NVARCHAR(30),",
    "ITEM_MRP DOUBLE,", "OUTLET_IDENTIFIER NVARCHAR(7),", "OUTLET_ESTABLISHMENT_YEAR INTEGER,",
    "OUTLET_SIZE NVARCHAR(7),", "OUTLET_LOCATION_IDENTIFIER NVARCHAR(7),",
    "OUTLET_TYPE NVARCHAR(20),", "ITEM_OUTLET_SALES DOUBLE", ")"]
  inserts := spaced 20 ["(\"ITEM_IDENTIFIER\", \"ITEM_WEIGHT\", \"ITEM_FAT_CONTENT\", ",
    "\"ITEM_VISIBILITY\", \"ITEM_TYPE\",",
    "\"ITEM_MRP\", \"OUTLET_IDENTIFIER\", \"OUTLET_ESTABLISHMENT_YEAR\",",
    "\"OUTLET_SIZE\", \"OUTLET_LOCATION_IDENTIFIER\", \"OUTLET_TYPE\",",
    "\"ITEM_OUTLET_SALES\") ", "VALUES (?, ?, ?, ?, ?, ?, ?, ?, ?, ?, ?,?)"]
  file := "../datasets/walmart-train.csv"

def blackFriday : StandardSet where
  tables := ["BLACK_FRIDAY_SALES_TBL"]
  columns := spaced 16 ["( ", "USER_ID INTEGER,", "PRODUCT_ID NVARCHAR(32),",
    "GENDER NVARCHAR(1),", "AGE NVARCHAR(32),", "OCCUPATION INTEGER,",
    "CITY_CATEGORY NVARCHAR(8),", "STAY_IN_CURRENT_CITY_YEARS NVARCHAR(8),",
    "MARITAL_STATUS INTEGER,", "PRODUCT_CATEGORY_1 INTEGER,", "PRODUCT_CATEGORY_2 INTEGER,",
    "PRODUCT_CATEGORY_3 INTEGER,", "PURCHASE DOUBLE", ")"]
  inserts := spaced 20 ["(\"USER_ID\", \"PRODUCT_ID\", \"GENDER\", \"AGE\",",
    "\"OCCUPATION\", \"CITY_CATEGORY\", \"STAY_IN_CURRENT_CITY_YEARS\",",
    "\"MARITAL_STATUS\", \"PRODUCT_CATEGORY_1\", \"PRODUCT_CATEGORY_2\",",
    "\"PRODUCT_CATEGORY_3\", \"PURCHASE\") ", "VALUES (?, ?, ?, ?, ?, ?, ?, ?, ?, ?, ?, ?)"]
  file := "../datasets/black-friday-sales-full.csv"

def iris : StandardSet where
  tables := ["IRIS_DATA_FULL_TBL", "IRIS_DATA_TRAIN_TBL", "IRIS_DATA_VALIDATION_TBL",
    "IRIS_DATA_TEST_TBL"]
  columns := spaced 8 ["( ", "ID INTEGER generated by default as identity,",
    "SEPALLENGTHCM DOUBLE,", "SEPALWIDTHCM  DOUBLE,", "PETALLENGTHCM DOUBLE,",
    "PETALWIDTHCM  DOUBLE,", "SPECIES       NVARCHAR(15)    )"]
  inserts := spaced 20 [
    "(\"SEPALLENGTHCM\", \"SEPALWIDTHCM\", \"PETALLENGTHCM\", \"PETALWIDTHCM\", \"SPECIES\")",
    "VALUES (?, ?, ?, ?, ?)"]
  file := "../datasets/iris.csv"

def bostonHousing (storage : Bool) : StandardSet :=
  let fixed := if storage then " CS_FIXED" else ""
  let whole := if storage then " CS_INT" else ""
  { tables := ["BOSTON_HOUSING_PRICES", "BOSTON_HOUSING_PRICES_TRAINING",
      "BOSTON_HOUSING_PRICES_VALIDATION", "BOSTON_HOUSING_PRICES_TEST"]
    columns := spaced 8 ["( ", "\"CRIM\" DECIMAL(12,5)" ++ fixed ++ ",",
      "\"ZN\" DECIMAL(7,3)" ++ fixed ++ ",", "\"INDUS\" DECIMAL(7,2)" ++ fixed ++ ",",
      "\"CHAS\" SMALLINT" ++ whole ++ ", \"NOX\" DECIMAL(10,4)" ++ fixed ++ ",",
      "\"RM\" DECIMAL(8,3)" ++ fixed ++ ",", "\"AGE\" DECIMAL(7,3)" ++ fixed ++ ",",
      "\"DIS\" DECIMAL(11,4)" ++ fixed ++ ",", "\"RAD\" TINYINT" ++ whole ++ ",",
      "\"TAX\" SMALLINT" ++ whole ++ ",", "\"PTRATIO\" DECIMAL(6,2)" ++ fixed ++ ",",
      "\"BLACK\" DECIMAL(9,3)" ++ fixed ++ ",", "\"LSTAT\" DECIMAL(7,2)" ++ fixed ++ ",",
      "\"MEDV\" DECIMAL(6,2)" ++ fixed ++ ",", "\"ID\" INTEGER", ")"]
    inserts := spaced 20 ["(\"CRIM\", \"ZN\", \"INDUS\", \"CHAS\",",
      "\"NOX\", \"RM\", \"AGE\", \"DIS\", \"RAD\", \"TAX\", \"PTRATIO\", \"BLACK\", \"LSTAT\", " ++
        "\"MEDV\", \"ID\") ",
      "VALUES (?, ?, ?, ?, ?, ?, ?, ?, ?, ?, ?, ?, ?, ?, ?)"]
    file := "../datasets/boston-house-prices.csv" }

def flightDelays : StandardSet where
  tables := ["FLIGHT_DELAYS_1M"]
  columns := spaced 12 ["( ", "ID BIGINT ,", "YEAR INTEGER ,", "MONTH INTEGER ,",
    "DAYOFMONTH INTEGER ,", "DAYOFWEEK INTEGER ,", "DEPTIME INTEGER ,", "CRSDEPTIME INTEGER ,",
    "ARRTIME INTEGER ,", "CRSARRTIME INTEGER ,", "UNIQUECARRIER VARCHAR(5),",
    "FLIGHTNUM INTEGER ,", "TAILNUM VARCHAR(8),", "ACTUALELAPSEDTIME INTEGER ,",
    "CRSELAPSEDTIME INTEGER ,", "AIRTIME INTEGER ,", "ARRDELAY INTEGER ,", "DEPDELAY INTEGER ,",
    "ORIGIN VARCHAR(3),", "DEST VARCHAR(3),", "DISTANCE INTEGER ,",
    "ISARRDELAYEDLABEL VARCHAR(1),", "ISARRDELAYED INTEGER ,", "ISDEPDELAYEDLABEL VARCHAR(1),",
    "ISDEPDELAYED INTEGER     ", ")"]
  inserts := spaced 20 [
    "(\"ID\", \"YEAR\", \"MONTH\", \"DAYOFMONTH\", \"DAYOFWEEK\", \"DEPTIME\", ",
    "\"CRSDEPTIME\", \"ARRTIME\", \"CRSARRTIME\", \"UNIQUECARRIER\", ",
    "\"FLIGHTNUM\", \"TAILNUM\", \"ACTUALELAPSEDTIME\", \"CRSELAPSEDTIME\", ",
    "\"AIRTIME\", \"ARRDELAY\", \"DEPDELAY\", \"ORIGIN\", \"DEST\", ",
    "\"DISTANCE\", \"ISARRDELAYEDLABEL\", \"ISARRDELAYED\", ",
    "\"ISDEPDELAYEDLABEL\", \"ISDEPDELAYED\") ",
    "VALUES (?, ?, ?, ?, ?, ?, ?, ?, ?, ?, ?, ?, ?, ?, ?, ?, ?, ?, ?, ?, ?, ?, ?, ?)"]
  file := "../datasets/flight-delays-1m-full.csv"

/-- Flights; they are never loaded by force. -/
def flights : StandardSet where
  tables := ["FLIGHT_DATA_FULL_TBL", "FLIGHT_DATA_TRAIN_TBL", "FLIGHT_DATA_VALIDATION_TBL",
    "FLIGHT_DATA_TEST_TBL"]
  columns := spaced 16 ["( ", "YEAR INTEGER DEFAULT NULL,", "MONTH INTEGER NULL,",
    "DAY INTEGER NULL,", "DAY_OF_WEEK INTEGER NULL,", "AIRLINE VARCHAR(10),",
    "FLIGHT_NUMBER VARCHAR(10),", "TAIL_NUMBER VARCHAR(10),", "ORIGIN_AIRPORT VARCHAR(10),",
    "DESTINATION_AIRPORT VARCHAR(100),", "SCHEDULED_DEPARTURE VARCHAR(10),",
    "DEPARTURE_TIME VARCHAR(10),", "DEPARTURE_DELAY INTEGER NULL,", "TAXI_OUT VARCHAR(10),",
    "WHEELS_OFF VARCHAR(10),", "SCHEDULED_TIME VARCHAR(10),", "ELAPSED_TIME VARCHAR(10),",
    "AIR_TIME VARCHAR(10),", "DISTANCE INTEGER,", "WHEELS_ON VARCHAR(10),",
    "TAXI_IN VARCHAR(10),", "SCHEDULED_ARRIVAL VARCHAR(10),", "ARRIVAL_TIME VARCHAR(10),",
    "ARRIVAL_DELAY VARCHAR(10),", "DIVERTED VARCHAR(10),", "CANCELLED VARCHAR(10),",
    "CANCELLATION_REASON VARCHAR(100) NULL,", "AIR_SYSTEM_DELAY INTEGER DEFAULT NULL,",
    "SECURITY_DELAY INTEGER DEFAULT NULL,", "AIRLINE_DELAY INTEGER DEFAULT NULL,",
    "LATE_AIRCRAFT_DELAY INTEGER DEFAULT NULL,", "WEATHER_DELAY INTEGER DEFAULT NULL", ")"]
  inserts := spaced 20 ["(\"YEAR\", \"MONTH\", \"DAY\", \"DAY_OF_WEEK\", \"AIRLINE\",",
    "\"FLIGHT_NUMBER\", \"TAIL_NUMBER\", \"ORIGIN_AIRPORT\", \"DESTINATION_AIRPORT\", " ++
      "\"SCHEDULED_DEPARTURE\", ",
    "\"DEPARTURE_TIME\", \"DEPARTURE_DELAY\", \"TAXI_OUT\", \"WHEELS_OFF\", " ++
      "\"SCHEDULED_TIME\", ",
    "\"ELAPSED_TIME\", \"AIR_TIME\", \"DISTANCE\", \"WHEELS_ON\", ",
    "\"TAXI_IN\", \"SCHEDULED_ARRIVAL\",\"ARRIVAL_TIME\",\"ARRIVAL_DELAY\",\"DIVERTED\"," ++
      "\"CANCELLED\",\"CANCELLATION_REASON\",\"AIR_SYSTEM_DELAY\",\"SECURITY_DELAY\"," ++
      "\"AIRLINE_DELAY\",\"LATE_AIRCRAFT_DELAY\",\"WEATHER_DELAY\") ",
    "VALUES (?, ?, ?, ?, ?, ?, ?, ?, ?, ?, ?, ?, ?, ?, ?, ?, ?, ?, ?, ?, ?, ?, " ++
      "?, ?, ?, ?, ?, ?, ? , ?, ?)"]
  file := "../datasets/flight.csv"
  forcible := false

def adult : StandardSet where
  tables := ["ADULT_DATA_FULL_TBL", "ADULT_DATA_TRAIN_TBL", "ADULT_DATA_VALIDATION_TBL",
    "ADULT_DATA_TEST_TBL"]
  columns := spaced 16 ["( ", "ID INTEGER generated by default as identity,",
    "AGE INTEGER DEFAULT NULL,", "WORKCLASS VARCHAR(50) NULL,", "FNLWGT INTEGER NULL,",
    "EDUCATION VARCHAR(100) NULL,", "EDUCATIONNUM INTEGER,", "MARITALSTATUS VARCHAR(50),",
    "OCCUPATION VARCHAR(50),", "RELATIONSHIP VARCHAR(50),", "RACE VARCHAR(50),",
    "SEX VARCHAR(10),", "CAPITALGAIN INTEGER NULL,", "CAPITALLOSS INTEGER NULL,",
    "HOURSPERWEEK INTEGER NULL,", "NATIVECOUNTRY VARCHAR(50),", "INCOME VARCHAR(50)", ")"]
  inserts := spaced 20 ["(\"AGE\", \"WORKCLASS\", \"FNLWGT\", \"EDUCATION\", \"EDUCATIONNUM\",",
    "\"MARITALSTATUS\", \"OCCUPATION\", \"RELATIONSHIP\", \"RACE\", \"SEX\", ",
    "\"CAPITALGAIN\", \"CAPITALLOSS\", \"HOURSPERWEEK\", \"NATIVECOUNTRY\",\"INCOME\") ",
    "VALUES (?, ?, ?, ?, ?, ?, ?, ?, ?, ?, ?, ?, ?, ?, ?)"]
  file := "../datasets/adult.csv"

def diabetes : StandardSet where
  tables := ["PIMA_INDIANS_DIABETES_TBL", "PIMA_INDIANS_DIABETES_TRAIN_VALID_TBL",
    "PIMA_INDIANS_DIABETES_TEST_TBL", "PIMA_INDIANS_DIABETES_VALIDATION_TBL"]
  columns := "(ID INTEGER generated by default as identity,PREGNANCIES INTEGER, " ++
    "GLUCOSE INTEGER, BLOODPRESSURE INTEGER, SKINTHICKNESS INTEGER, " ++
    "INSULIN INTEGER, BMI DOUBLE, PEDIGREE DOUBLE, AGE INTEGER, CLASS INTEGER)"
  inserts := "(\"PREGNANCIES\", \"GLUCOSE\", \"BLOODPRESSURE\", \"SKINTHICKNESS\", \"INSULIN\", " ++
    "\"BMI\", \"PEDIGREE\", \"AGE\", \"CLASS\") VALUES (?, ?, ?, ?, ?, ?, ?, ?, ?)"
  file := "../datasets/pima-indians-diabetes.csv"
  train := 0.8
  valid := 0.1

def shampoo : StandardSet where
  tables := ["SHAMPOO_SALES_DATA_TBL"]
  columns := spaced 16 ["( ", "ID INTEGER NULL,", "SALES DOUBLE NULL", ")"]
  inserts := spaced 20 ["(\"ID\", \"SALES\") ", "VALUES (?, ?)"]
  file := "../datasets/shampoo.csv"
  train := 1.0
  valid := 0.0
  test := 0.0

def apriori : StandardSet where
  tables := ["PAL_APRIORI_TRANS_TBL"]
  columns := spaced 16 ["( ", "CUSTOMER INTEGER DEFAULT NULL,", "ITEM VARCHAR(20)", ")"]
  inserts := spaced 12 ["(\"CUSTOMER\", \"ITEM\") ", "VALUES (?, ?)"]
  file := "../datasets/apriori_item_data.csv"
  train := 1.0
  valid := 0.0
  test := 0.0

def sequences : StandardSet where
  tables := ["PAL_SPM_DATA_TBL"]
  columns := spaced 16 ["( \t\t        CUSTID VARCHAR(100),", "TRANSID INTEGER,",
    "ITEMS VARCHAR(100)", ")"]
  inserts := spaced 12 ["(\"CUSTID\",\"TRANSID\",\"ITEMS\") ", "VALUES (?, ? , ?)"]
  file := "../datasets/spm_data.csv"
  train := 1.0
  valid := 0.0
  test := 0.0

def catalogue (storage : Bool) : List (String × StandardSet) :=
  [("bank_data", bank), ("titanic_data", titanic), ("walmart_data", walmart),
   ("black_friday_sales_data", blackFriday), ("iris_data", iris),
   ("boston_housing_data", bostonHousing storage), ("flight_delays_1m", flightDelays),
   ("flight_data", flights), ("adult_data", adult), ("diabetes_data", diabetes),
   ("shampoo_data", shampoo), ("apriori_data", apriori), ("spm_data", sequences)]

end StandardSet

end TraceArtifacts.Loading
